import ExecCounts.Proofs.Coverage.EnoughCounters

set_option autoImplicit false

namespace ExecCounts

theorem Expr.evaluate_within_zeros (count levels : Nat) (expr : Expr) (shallow : expr.depth < levels)
    (below : Below count expr.maxCounter) :
    expr.evaluateWithin (List.replicate count 0) levels = .ok 0 := by
  induction expr generalizing levels with
  | zero =>
      obtain ⟨levels, rfl⟩ := Nat.exists_eq_add_of_lt shallow
      rfl
  | counter index =>
      obtain ⟨levels, rfl⟩ := Nat.exists_eq_add_of_lt shallow
      have known : index.toNat < count := below index rfl
      rw [evaluateWithin, List.getElem?_replicate, if_pos known]
  | add left right leftIh rightIh | subtract left right leftIh rightIh =>
      rw [depth] at shallow
      rw [maxCounter, below_max] at below
      obtain ⟨levels, rfl⟩ : ∃ n, levels = n + 1 := ⟨levels - 1, by omega⟩
      rw [evaluateWithin, leftIh levels (by omega) below.1, rightIh levels (by omega) below.2]
      rfl

theorem Expr.evaluate_zeros (count : Nat) (expr : Expr) (shallow : expr.depth ≤ maxDepth)
    (below : Below count expr.maxCounter) : expr.evaluate (List.replicate count 0) = .ok 0 :=
  evaluate_within_zeros count (maxDepth + 1) expr (Nat.lt_succ_of_le shallow) below

namespace Coverage

def zeroRecord (mapping : FunctionMapping) (count : Nat) : FunctionRecord :=
  ⟨mapping.name, mapping.hash, List.replicate count 0, none⟩

def profiled (id : FunctionId) (coverage : FunctionCoverage) : FunctionCoverage :=
  if coverage.id = id then { coverage with hasProfile := true } else coverage

def profiledContribution (id : FunctionId) (contribution : Contribution) : Contribution :=
  { contribution with function := profiled id contribution.function }

def profiledReport (id : FunctionId) (report : Report) : Report :=
  { report with functions := report.functions.map (profiled id) }

theorem profiled_own (id : FunctionId) (coverage : FunctionCoverage) (own : coverage.id = id) :
    profiled id coverage = { coverage with hasProfile := true } :=
  if_pos own

theorem profiled_other (id : FunctionId) (coverage : FunctionCoverage) (other : coverage.id ≠ id) :
    profiled id coverage = coverage :=
  if_neg other

section Evaluated

variable {mapping : FunctionMapping} {count : Nat}
  (shallow : ∀ region ∈ mapping.regions, region.counter.depth ≤ Expr.maxDepth)
  (enough : mapping.numCounters ≤ count)

include shallow enough

theorem evaluate_region_zeros (region : Region) (listed : region ∈ mapping.regions) :
    evaluateRegion mapping (some (List.replicate count 0)) region =
      evaluateRegion mapping none region := by
  have zero := region.counter.evaluate_zeros count (shallow region listed)
    (mapping.counters_below count enough region listed _ List.mem_cons_self)
  unfold evaluateRegion
  dsimp only
  rw [zero]
  rfl

theorem evaluate_zeros : evaluate mapping (some (zeroRecord mapping count)) =
    (evaluate mapping none).map (profiledContribution mapping.id) := by
  have regions : (mapping.regions.filter (·.kind == .code)).mapM
      (evaluateRegion mapping (some (List.replicate count 0))) =
        (mapping.regions.filter (·.kind == .code)).mapM (evaluateRegion mapping none) :=
    map_m_congr fun region kept =>
      evaluate_region_zeros shallow enough region (List.mem_of_mem_filter kept)
  rw [evaluate, evaluate, Option.map_some, Option.map_none, zeroRecord, regions]
  cases (mapping.regions.filter (·.kind == .code)).mapM (evaluateRegion mapping none) with
  | error failure => rfl
  | ok segments =>
      have own := profiled_own mapping.id ⟨mapping.name, mapping.hash, mapping.filename,
        (segments.head?.map fun region => region.segment.count).getD 0, false⟩ rfl
      exact congrArg (fun function => Except.ok (Contribution.mk function segments)) own.symm

end Evaluated

section Added

variable {profile : Profile} {before after : List FunctionRecord} {record : FunctionRecord}
  (split : profile.records = before ++ after)

include split

theorem candidates_other (name : String) (other : record.name ≠ name) :
    candidates { profile with records := before ++ record :: after } name =
      candidates profile name := by
  rw [candidates, candidates, split, List.filter_append, List.filter_append,
    List.filter_cons_of_neg (by simp [other])]

theorem match_record_other (mapping : FunctionMapping) (other : record.name ≠ mapping.name) :
    matchRecord { profile with records := before ++ record :: after } mapping =
      matchRecord profile mapping := by
  rw [matchRecord, matchRecord, candidates_other split mapping.name other]

theorem match_record_added (mapping : FunctionMapping) (named : record.name = mapping.name)
    (hashed : record.hash = mapping.hash) (plain : record.isContextSensitive = false)
    (unknown : candidates profile mapping.name = []) :
    matchRecord { profile with records := before ++ record :: after } mapping = .ok (some record) := by
  have candidate : (!record.isContextSensitive && record.name == mapping.name) = true := by
    simp [plain, named]
  have only : candidates { profile with records := before ++ record :: after } mapping.name =
      [record] := by
    rw [candidates, split, List.filter_append, List.append_eq_nil_iff] at unknown
    rw [candidates, List.filter_append, List.filter_cons, if_pos candidate, unknown.1, unknown.2,
      List.nil_append]
  rw [matchRecord, only, List.find?_cons_of_pos (by simp [hashed])]

end Added

theorem entry_other (profile : Profile) (id : FunctionId) (mapping : FunctionMapping)
    (other : mapping.id ≠ id) :
    (entryOf profile mapping).map (profiledContribution id) = entryOf profile mapping := by
  cases entry : entryOf profile mapping with
  | error failure => rfl
  | ok contribution =>
      have own := (evaluate_function ((map_error_ok_iff _ _ _).mp entry)).1
      have same := profiled_other id contribution.function (own ▸ other)
      exact congrArg (fun function => Except.ok { contribution with function }) same

section Added

variable {profile : Profile} {before after : List FunctionRecord} {mapping : FunctionMapping}
  {count : Nat} (split : profile.records = before ++ after)
  (unknown : ∀ record ∈ profile.records,
    record.isContextSensitive = false → record.name ≠ mapping.name)
  (shallow : ∀ region ∈ mapping.regions, region.counter.depth ≤ Expr.maxDepth)
  (plain : (zeroRecord mapping count).isContextSensitive = false)
  (enough : mapping.numCounters ≤ count)

include split unknown shallow plain enough

theorem transcript_zeros (mappings : List FunctionMapping)
    (each : ∀ other ∈ mappings, other = mapping ∨ other.name ≠ mapping.name) :
    transcript { profile with records := before ++ zeroRecord mapping count :: after } mappings =
      (transcript profile mappings).withValues (profiledContribution mapping.id) := by
  have none_known : candidates profile mapping.name = [] := by
    rw [candidates, List.filter_eq_nil_iff]
    intro record listed matched
    obtain ⟨counts, named⟩ : record.isContextSensitive = false ∧ record.name = mapping.name := by
      simpa using matched
    exact unknown record listed counts named
  have unmatched : matchRecord profile mapping = .ok none := by
    rw [matchRecord, none_known]
    rfl
  induction mappings with
  | nil => rfl
  | cons first rest ih =>
      obtain ⟨own, others⟩ := List.forall_mem_cons.mp each
      rw [transcript, transcript, ih others]
      obtain rfl | other := own
      · rw [match_record_added split first rfl rfl plain none_known, unmatched]
        dsimp only
        rw [Transcript.cons_with_values, evaluate_zeros shallow enough]
        cases evaluate first none <;> rfl
      · rw [match_record_other split first (Ne.symm other)]
        cases matched : matchRecord profile first with
        | error failure => rfl
        | ok found =>
            have entry := entry_other profile mapping.id first fun same =>
              other (congrArg FunctionId.name same)
            rw [entryOf, ← match_record_ok profile first found matched] at entry
            dsimp only
            rw [Transcript.cons_with_values, entry]

end Added

theorem profiled_report (fold : LineFold) (profile : Profile) (mappings : Mappings)
    (id : FunctionId) (records : List FunctionRecord) (contributions : List Contribution)
    (skipped : List Skipped) :
    reportOf fold { profile with records } mappings (contributions.map (profiledContribution id))
        skipped =
      profiledReport id (reportOf fold profile mappings contributions skipped) := by
  rw [reportOf, reportOf, profiledReport, List.flatMap_map, List.map_map, List.map_map]
  rfl

theorem zero_record_counts_nothing (policy : Policy) (fold : LineFold) (profile : Profile)
    (mappings : Mappings) (before after : List FunctionRecord) (mapping : FunctionMapping)
    (count : Nat) (split : profile.records = before ++ after)
    (unknown : ∀ record ∈ profile.records,
      record.isContextSensitive = false → record.name ≠ mapping.name)
    (first : mappings.get? mapping.id = some mapping)
    (shallow : ∀ region ∈ mapping.regions, ∀ expr ∈ region.counters, expr.depth ≤ 64)
    (alone : ∀ other ∈ mappings.functions, other.name = mapping.name → other.hash = mapping.hash)
    (plain : mapping.hash &&& FunctionRecord.contextBit = 0)
    (enough : mapping.numCounters ≤ count) :
    aggregate policy fold { profile with records := before ++ zeroRecord mapping count :: after }
        mappings =
      (aggregate policy fold profile mappings).map (profiledReport mapping.id) := by
  have each : ∀ other ∈ firstOf [] mappings.functions,
      other = mapping ∨ other.name ≠ mapping.name := by
    intro other listed
    by_cases named : other.name = mapping.name
    · have hashed := alone other (mem_first_of [] _ other listed).1 named
      have same : other.id = mapping.id := by rw [FunctionMapping.id, named, hashed]; rfl
      have found := find_first_of [] _ other listed
      rw [same] at found
      exact .inl (Option.some.inj (found.symm.trans first))
    · exact .inr named
  have counts : (zeroRecord mapping count).isContextSensitive = false := by
    rw [FunctionRecord.isContextSensitive, bne_eq_false_iff_eq]
    exact plain
  rw [aggregate_eq, aggregate_eq, transcript_zeros split unknown
    (fun region listed => shallow region listed _ List.mem_cons_self) counts enough _ each,
    Transcript.settle_with_values]
  cases (transcript profile (firstOf [] mappings.functions)).settle policy with
  | error failure => rfl
  | ok found => exact congrArg Except.ok (profiled_report fold profile mappings mapping.id _ _ _)

/-- A function of two regions that is mapped twice, before one whose record is too short. -/
def unrecorded : FunctionMapping :=
  ⟨"f", 7, .v14, ["a"], [⟨0, ⟨1, 1⟩, ⟨3, 2⟩, .code, .add (.counter 0) (.counter 2), none, none⟩,
    ⟨0, ⟨2, 1⟩, ⟨2, 9⟩, .branch, .subtract .zero (.counter 1), some (.counter 3), none⟩]⟩

def unrecordedFirst : Mappings where
  functions := [unrecorded, ⟨"g", 9, .v14, ["a"], [⟨0, ⟨5, 1⟩, ⟨5, 2⟩, .code, .counter 7, none, none⟩]⟩,
    { unrecorded with regions := [] }]
  skipped := []

def othersRecorded : Profile :=
  { Profile.empty .indexed with
    records := [⟨"f", 0x1000000000000007, [1], none⟩, ⟨"g", 9, [5], none⟩] }

def zerosRecorded : Profile :=
  { othersRecorded with
    records := [⟨"f", 0x1000000000000007, [1], none⟩, zeroRecord unrecorded 4, ⟨"g", 9, [5], none⟩] }

theorem zero_record_counts_nothing_unrecorded : ∃ without report : Report,
    aggregate .bestEffort .sum othersRecorded unrecordedFirst = .ok without ∧
      without.functions = [⟨"f", 7, some "a", 0, false⟩] ∧
      aggregate .bestEffort .sum zerosRecorded unrecordedFirst = .ok report ∧
      report = { without with functions := [⟨"f", 7, some "a", 0, true⟩] } ∧
      report.skipped.map Skipped.function = [some ⟨"g", 9⟩] := by
  have same : aggregate .bestEffort .sum zerosRecorded unrecordedFirst =
      (aggregate .bestEffort .sum othersRecorded unrecordedFirst).map (profiledReport ⟨"f", 7⟩) :=
    zero_record_counts_nothing .bestEffort .sum othersRecorded unrecordedFirst
      [⟨"f", 0x1000000000000007, [1], none⟩] [⟨"g", 9, [5], none⟩] unrecorded 4 rfl (by decide) rfl
      (by decide) (by decide) (by decide) (by decide)
  exact ⟨_, _, rfl, rfl, same, rfl, rfl⟩

end Coverage

end ExecCounts
