import ExecCounts.Proofs.Coverage.BestEffort
import ExecCounts.Proofs.Mapping.WellFormed
import Mathlib.Algebra.GroupWithZero.Nat

set_option autoImplicit false

namespace ExecCounts

namespace Expr

def Below (count : Nat) (greatest : Option UInt32) : Prop :=
  ∀ index, greatest = some index → index.toNat < count

theorem below_iff (count : Nat) (greatest : Option UInt32) : Below count greatest ↔
    greatest = none ∨ ∃ index, greatest = some index ∧ index.toNat < count := by
  cases greatest <;> simp [Below]

theorem below_max (count : Nat) (first second : Option UInt32) :
    Below count (maxIndex first second) ↔ Below count first ∧ Below count second := by
  cases first with
  | none => simp [maxIndex, Below]
  | some a =>
      cases second with
      | none => simp [maxIndex, Below]
      | some b =>
          simp only [maxIndex, Below, Option.some.injEq, forall_eq', UInt32.le_iff_toNat_le]
          split <;> omega

theorem below_foldl (count : Nat) (indices : List (Option UInt32)) (start : Option UInt32) :
    Below count (indices.foldl maxIndex start) ↔
      Below count start ∧ ∀ index ∈ indices, Below count index := by
  induction indices generalizing start with
  | nil => simp
  | cons index rest ih => rw [List.foldl_cons, ih, below_max, List.forall_mem_cons, and_assoc]

theorem evaluate_within_ok_iff (counters : List Count) (levels : Nat) (expr : Expr)
    (shallow : expr.depth < levels) :
    (∃ count, expr.evaluateWithin counters levels = .ok count) ↔
      Below counters.length expr.maxCounter := by
  induction expr generalizing levels with
  | zero =>
      obtain ⟨levels, rfl⟩ := Nat.exists_eq_add_of_lt shallow
      refine ⟨fun _ index same => ?_, fun _ => ⟨0, rfl⟩⟩
      cases same
  | counter index =>
      obtain ⟨levels, rfl⟩ := Nat.exists_eq_add_of_lt shallow
      rw [evaluateWithin, maxCounter, Below]
      by_cases known : index.toNat < counters.length <;> simp [known]
  | add left right leftIh rightIh | subtract left right leftIh rightIh =>
      rw [depth] at shallow
      obtain ⟨levels, rfl⟩ : ∃ n, levels = n + 1 := ⟨levels - 1, by omega⟩
      rw [evaluateWithin, both_ok_iff, leftIh levels (by omega), rightIh levels (by omega),
        maxCounter, below_max]

theorem evaluate_ok_iff (counters : List Count) (expr : Expr) (shallow : expr.depth ≤ maxDepth) :
    (∃ count, expr.evaluate counters = .ok count) ↔ Below counters.length expr.maxCounter :=
  evaluate_within_ok_iff counters (maxDepth + 1) expr (Nat.lt_succ_of_le shallow)

end Expr

theorem FunctionMapping.counters_below (mapping : FunctionMapping) (count : Nat)
    (enough : mapping.numCounters ≤ count) (region : Region) (listed : region ∈ mapping.regions)
    (expr : Expr) (counted : expr ∈ region.counters) : Expr.Below count expr.maxCounter := by
  have greatest : Expr.Below count mapping.maxCounter := by
    intro index same
    rw [numCounters, same] at enough
    exact enough
  rw [maxCounter, Expr.below_foldl] at greatest
  exact greatest.2 _ (List.mem_map.mpr ⟨expr, List.mem_flatMap.mpr ⟨region, listed, counted⟩, rfl⟩)

namespace Mappings

theorem functions_well_formed (policy : Policy) (data : Bytes) (mappings : Mappings)
    (parsed : parse policy data = .ok mappings) (mapping : FunctionMapping)
    (listed : mapping ∈ mappings.functions) : ∃ size, mapping.WellFormed size := by
  rw [parse, bind_ok_iff] at parsed
  obtain ⟨⟨functions, skipped⟩, settled, same⟩ := parsed
  cases (pure_ok_iff _ _).mp same
  obtain ⟨rfl, -, -, ⟨⟩, ended⟩ := Transcript.settle_ok_parts policy _ _ _ settled
  have placed := Section.sections_decoded data.length (Cursor.little data) ended
  obtain ⟨place, -, decodes, -⟩ :=
    forall₂_exists placed.flip _ ((Transcript.mem_values_iff _ mapping).mp listed)
  exact ⟨place.size, (Section.decoded_well_formed place mapping decodes).2⟩

def without (mappings : Mappings) (id : FunctionId) : Mappings :=
  { mappings with functions := mappings.functions.filter fun mapping => mapping.id ≠ id }

end Mappings

namespace Transcript

variable {α β : Type} {value : α} {first second : Transcript α β}

structure Adds (value : α) (first second : Transcript α β) : Prop where
  failures : first.failures = second.failures
  outcome : first.outcome = second.outcome
  values : (∃ failure, second.outcome = .error failure) ∨ ∃ ahead behind,
    first.values = ahead ++ behind ∧ second.values = ahead ++ value :: behind

namespace Adds

theorem here (value : α) (rest : Transcript α β) : Adds value rest (.cons (.ok value) rest) where
  failures := rfl
  outcome := rfl
  values := .inr ⟨[], rest.values, rfl, rfl⟩

theorem stopped (value : α) (failure : Failure) :
    Adds value (.stop failure : Transcript α β) (.stop failure) where
  failures := rfl
  outcome := rfl
  values := .inl ⟨failure, rfl⟩

theorem cons (entry : Except Failure α) (adds : Adds value first second) :
    Adds value (.cons entry first) (.cons entry second) := by
  cases entry with
  | error failure =>
      exact ⟨congrArg (failure :: ·) adds.failures, adds.outcome, adds.values⟩
  | ok own =>
      refine ⟨adds.failures, adds.outcome, adds.values.imp_right ?_⟩
      rintro ⟨ahead, behind, ownValues, withValue⟩
      exact ⟨own :: ahead, behind, congrArg (own :: ·) ownValues, congrArg (own :: ·) withValue⟩

theorem settle_error (adds : Adds value first second) (policy : Policy) (failure : Failure)
    (settled : second.settle policy = .error failure) : first.settle policy = .error failure := by
  rw [settle_of_same_failures policy second first adds.failures.symm adds.outcome.symm, settled]
  rfl

theorem settle_ok (adds : Adds value first second) (policy : Policy) (values : List α)
    (skipped : List Skipped) (settled : second.settle policy = .ok (values, skipped)) :
    ∃ ahead behind, values = ahead ++ value :: behind ∧
      first.settle policy = .ok (ahead ++ behind, skipped) := by
  obtain ⟨rfl, -, -, result, ended⟩ := settle_ok_parts policy second values skipped settled
  obtain ⟨failure, stopped⟩ | ⟨ahead, behind, without, shape⟩ := adds.values
  · rw [ended] at stopped
    cases stopped
  · refine ⟨ahead, behind, shape, ?_⟩
    rw [settle_of_same_failures policy second first adds.failures.symm adds.outcome.symm, settled,
      ← without]
    rfl

end Adds

end Transcript

namespace Coverage

section Evaluated

variable {mapping : FunctionMapping} {record : FunctionRecord}

theorem evaluate_region_ok_iff (region : Region) {version : Version}
    (formed : region.WellFormed version mapping.filenames.length)
    (enough : Expr.Below record.counters.length region.counter.maxCounter) :
    (∃ segment, evaluateRegion mapping (some record.counters) region = .ok segment) ↔
      region.stop.line.toNat ≤ maxLine := by
  obtain ⟨count, counted⟩ :=
    (Expr.evaluate_ok_iff _ _ (formed.shallow _ List.mem_cons_self)).mpr enough
  unfold evaluateRegion
  dsimp only
  rw [counted, List.getElem?_eq_getElem formed.inFile]
  change (∃ segment, (if maxLine < region.stop.line.toNat then _ else _) = _) ↔ _
  split
  · rename_i large
    constructor
    · rintro ⟨segment, same⟩
      cases same
    · intro within
      exact absurd large (Nat.not_lt.mpr within)
  · rename_i within
    exact ⟨fun _ => Nat.not_lt.mp within, fun _ => ⟨_, rfl⟩⟩

theorem evaluate_ok_iff {size : Nat} (formed : mapping.WellFormed size)
    (enough : mapping.numCounters ≤ record.counters.length) :
    (∃ contribution, evaluate mapping (some record) = .ok contribution) ↔
      ∀ region ∈ mapping.regions, region.kind = .code → region.stop.line.toNat ≤ maxLine := by
  have each (region : Region) (listed : region ∈ mapping.regions) :
      (∃ segment, evaluateRegion mapping (some record.counters) region = .ok segment) ↔
        region.stop.line.toNat ≤ maxLine :=
    evaluate_region_ok_iff region (formed.regions region listed)
      (mapping.counters_below _ enough region listed _ List.mem_cons_self)
  have segments : (∃ contribution, evaluate mapping (some record) = .ok contribution) ↔
      ∃ segments, (mapping.regions.filter (·.kind == .code)).mapM
        (evaluateRegion mapping (some record.counters)) = .ok segments := by
    rw [evaluate]
    simp only [bind_ok_iff, pure_ok_iff, Option.map_some]
    constructor
    · rintro ⟨contribution, segments, found, -⟩
      exact ⟨segments, found⟩
    · rintro ⟨segments, found⟩
      exact ⟨_, segments, found, rfl⟩
  rw [segments, map_m_succeeds_iff]
  simp only [List.mem_filter, beq_iff_eq, and_imp]
  exact forall₂_congr fun region listed => imp_congr_right fun _ => each region listed

theorem evaluate_function {found : Option FunctionRecord} {contribution : Contribution}
    (evaluated : evaluate mapping found = .ok contribution) :
    contribution.function.id = mapping.id ∧ contribution.function.hasProfile = found.isSome := by
  rw [evaluate, bind_ok_iff] at evaluated
  obtain ⟨segments, -, same⟩ := evaluated
  cases (pure_ok_iff _ _).mp same
  exact ⟨rfl, rfl⟩

end Evaluated

section FirstOf

theorem mem_first_of_append (seen : List FunctionId) (before after : List FunctionMapping)
    (mapping : FunctionMapping) (unseen : mapping.id ∉ seen)
    (first : mapping.id ∉ before.map FunctionMapping.id) :
    mapping ∈ firstOf seen (before ++ mapping :: after) := by
  induction before generalizing seen with
  | nil =>
      rw [List.nil_append, firstOf, if_neg unseen]
      exact List.mem_cons_self
  | cons other rest ih =>
      rw [List.map_cons, List.mem_cons, not_or] at first
      rw [List.cons_append, firstOf]
      split
      · exact ih seen unseen first.2
      · exact List.mem_cons_of_mem _ (ih _ (by simpa using ⟨first.1, unseen⟩) first.2)

theorem first_of_repeated (seen : List FunctionId) (before after : List FunctionMapping)
    (mapping : FunctionMapping)
    (repeated : mapping.id ∈ seen ∨ mapping.id ∈ before.map FunctionMapping.id) :
    firstOf seen (before ++ mapping :: after) = firstOf seen (before ++ after) := by
  induction before generalizing seen with
  | nil =>
      have known : mapping.id ∈ seen := repeated.resolve_right List.not_mem_nil
      rw [List.nil_append, firstOf, if_pos known, List.nil_append]
  | cons other rest ih =>
      rw [List.map_cons, List.mem_cons] at repeated
      rw [List.cons_append, firstOf, List.cons_append, firstOf]
      split
      · rename_i known
        refine ih seen ?_
        obtain seenBefore | same | later := repeated
        · exact .inl seenBefore
        · exact .inl (same ▸ known)
        · exact .inr later
      · refine congrArg _ (ih _ ?_)
        rw [List.mem_cons]
        tauto

theorem first_of_distinct (seen : List FunctionId) (mappings : List FunctionMapping) :
    (firstOf seen mappings).Pairwise fun a b => a.id ≠ b.id := by
  induction mappings generalizing seen with
  | nil => exact .nil
  | cons mapping rest ih =>
      rw [firstOf]
      split
      · exact ih seen
      · refine .cons (fun other listed same => ?_) (ih _)
        exact (mem_first_of _ rest other listed).2 (same ▸ List.mem_cons_self)

theorem first_of_without (mappings : Mappings) (mapping : FunctionMapping)
    (member : mapping ∈ firstOf [] mappings.functions) : ∃ front back,
      firstOf [] mappings.functions = front ++ mapping :: back ∧
        firstOf [] (mappings.without mapping.id).functions = front ++ back ∧
          ∀ other ∈ front ++ back, other.id ≠ mapping.id := by
  obtain ⟨front, back, shape⟩ := List.append_of_mem member
  have distinct := first_of_distinct [] mappings.functions
  rw [shape, List.pairwise_append] at distinct
  obtain ⟨-, ownBack, frontBack⟩ := distinct
  have others : ∀ other ∈ front ++ back, other.id ≠ mapping.id := by
    intro other listed
    obtain inFront | inBack := List.mem_append.mp listed
    · exact frontBack other inFront mapping List.mem_cons_self
    · exact Ne.symm (List.rel_of_pairwise_cons ownBack inBack)
  refine ⟨front, back, shape, ?_, others⟩
  have kept := first_of_filter (fun id => decide (id ≠ mapping.id)) [] [] mappings.functions
    fun _ _ => Iff.rfl
  obtain ⟨frontOthers, backOthers⟩ := List.forall_mem_append.mp others
  rw [Mappings.without, kept, shape, List.filter_append, List.filter_cons_of_neg (by simp),
    List.filter_eq_self.mpr (by simpa using frontOthers),
    List.filter_eq_self.mpr (by simpa using backOthers)]

end FirstOf

section Transcripts

variable (profile : Profile)

theorem transcript_cons {mapping : FunctionMapping} (fits : ¬ Mismatched profile mapping)
    (rest : List FunctionMapping) : transcript profile (mapping :: rest) =
      .cons (entryOf profile mapping) (transcript profile rest) := by
  rw [transcript, match_record_fits fits]
  rfl

theorem transcript_cons_mismatched {mapping : FunctionMapping}
    (mismatched : Mismatched profile mapping) : ∃ failure, failure.function = some mapping.id ∧
      ∀ rest, transcript profile (mapping :: rest) = .stop failure := by
  obtain ⟨failure, matched, -, function⟩ := match_record_mismatched mismatched
  refine ⟨failure, function, fun rest => ?_⟩
  rw [transcript, matched]

theorem transcript_blames (mappings : List FunctionMapping) (failure : Failure)
    (failed : failure ∈ (transcript profile mappings).failures ∨
      (transcript profile mappings).outcome = .error failure) :
    ∃ mapping ∈ mappings, failure.function = some mapping.id := by
  induction mappings with
  | nil => obtain ⟨⟨⟩⟩ | ⟨⟨⟩⟩ := failed
  | cons mapping rest ih =>
      by_cases mismatched : Mismatched profile mapping
      · obtain ⟨own, function, stopped⟩ := transcript_cons_mismatched profile mismatched
        rw [stopped] at failed
        obtain listed | ended := failed
        · cases listed
        · cases ended
          exact ⟨mapping, List.mem_cons_self, function⟩
      · rw [transcript_cons profile mismatched] at failed
        cases entry : entryOf profile mapping with
        | ok contribution =>
            rw [entry] at failed
            obtain ⟨other, listed, function⟩ := ih failed
            exact ⟨other, List.mem_cons_of_mem _ listed, function⟩
        | error own =>
            rw [entry] at failed
            by_cases same : failure = own
            · cases same
              exact ⟨mapping, List.mem_cons_self, (entry_error profile mapping _ entry).1⟩
            · obtain ⟨other, listed, function⟩ :=
                ih (failed.imp_left fun listed => (List.mem_cons.mp listed).resolve_left same)
              exact ⟨other, List.mem_cons_of_mem _ listed, function⟩

theorem transcript_adds {mapping : FunctionMapping} {contribution : Contribution}
    (fits : ¬ Mismatched profile mapping) (evaluated : entryOf profile mapping = .ok contribution)
    (front back : List FunctionMapping) : Transcript.Adds contribution
      (transcript profile (front ++ back)) (transcript profile (front ++ mapping :: back)) := by
  induction front with
  | nil =>
      rw [List.nil_append, List.nil_append, transcript_cons profile fits, evaluated]
      exact .here contribution _
  | cons first rest ih =>
      rw [List.cons_append, List.cons_append]
      by_cases mismatched : Mismatched profile first
      · obtain ⟨failure, -, stopped⟩ := transcript_cons_mismatched profile mismatched
        rw [stopped, stopped]
        exact .stopped contribution failure
      · rw [transcript_cons profile mismatched, transcript_cons profile mismatched]
        exact .cons (entryOf profile first) ih

end Transcripts

section Aggregated

variable (policy : Policy) (fold : LineFold) (profile : Profile) (mappings : Mappings)

theorem aggregate_eq : aggregate policy fold profile mappings =
    (fun found => reportOf fold profile mappings found.1 found.2) <$>
      (transcript profile (firstOf [] mappings.functions)).settle policy := by
  rw [aggregate, first_mappings_eq]
  cases (transcript profile (firstOf [] mappings.functions)).settle policy <;> rfl

theorem aggregate_error_iff (failure : Failure) :
    aggregate policy fold profile mappings = .error failure ↔
      (transcript profile (firstOf [] mappings.functions)).settle policy = .error failure := by
  rw [aggregate_eq, map_error_iff]

theorem aggregate_ok_iff (report : Report) :
    aggregate policy fold profile mappings = .ok report ↔ ∃ contributions skipped,
      (transcript profile (firstOf [] mappings.functions)).settle policy =
          .ok (contributions, skipped) ∧
        reportOf fold profile mappings contributions skipped = report := by
  rw [aggregate_eq, map_ok_iff, Prod.exists]

/-- Aggregation neither fails on a function nor skips it. It ends as it would without the function,
but for what the function adds to the report. -/
structure Reported (id : FunctionId) : Prop where
  failed : ∀ failure, aggregate policy fold profile mappings = .error failure →
    failure.function ≠ some id ∧
      aggregate policy fold profile (mappings.without id) = .error failure
  listed : ∀ report, aggregate policy fold profile mappings = .ok report →
    ∃ others ahead coverage behind,
      aggregate policy fold profile (mappings.without id) = .ok others ∧
        others.functions = ahead ++ behind ∧ report.functions = ahead ++ coverage :: behind ∧
        coverage.id = id ∧ coverage.hasProfile = true ∧ report.skipped = others.skipped
  unskipped : ∀ report, aggregate policy fold profile mappings = .ok report →
    ∃ skipped, report.skipped = profile.skipped ++ mappings.skipped ++ skipped ∧
      ∀ entry ∈ skipped, entry.function ≠ some id

theorem without_blames {id : FunctionId} (others : List FunctionMapping)
    (other : ∀ mapping ∈ others, mapping.id ≠ id) (failure : Failure)
    (failed : failure ∈ (transcript profile others).failures ∨
      (transcript profile others).outcome = .error failure) : failure.function ≠ some id := by
  obtain ⟨mapping, listed, function⟩ := transcript_blames profile others failure failed
  rw [function]
  exact fun same => other mapping listed (Option.some.inj same)

theorem evaluated_reported {mapping : FunctionMapping} {record : FunctionRecord}
    {contribution : Contribution} (member : mapping ∈ firstOf [] mappings.functions)
    (matched : matchRecord profile mapping = .ok (some record))
    (evaluated : evaluate mapping (some record) = .ok contribution) :
    Reported policy fold profile mappings mapping.id := by
  obtain ⟨front, back, shape, left, other⟩ := first_of_without mappings mapping member
  have fits : ¬ Mismatched profile mapping := by
    intro mismatched
    obtain ⟨failure, failed, -⟩ := match_record_mismatched mismatched
    rw [matched] at failed
    cases failed
  have entry : entryOf profile mapping = .ok contribution := by
    rw [entryOf, ← match_record_ok profile mapping _ matched, evaluated]
    rfl
  -- With the function, the transcript has one value more, and no other failure.
  have adds := transcript_adds profile fits entry front back
  have blames := without_blames profile (front ++ back) other
  refine ⟨fun failure failed => ?_, fun report aggregated => ?_, fun report aggregated => ?_⟩
  · rw [aggregate_error_iff, shape] at failed
    have settled := adds.settle_error policy failure failed
    rw [aggregate_error_iff, left]
    exact ⟨blames failure (Transcript.settle_error_parts policy _ failure settled), settled⟩
  · obtain ⟨contributions, skipped, settled, rfl⟩ := (aggregate_ok_iff _ _ _ _ _).mp aggregated
    rw [shape] at settled
    obtain ⟨ahead, behind, rfl, without⟩ := adds.settle_ok policy _ _ settled
    rw [← left] at without
    have others := (aggregate_ok_iff _ fold _ _ _).mpr ⟨_, _, without, rfl⟩
    obtain ⟨id, profiled⟩ := evaluate_function evaluated
    exact ⟨_, ahead.map Contribution.function, contribution.function,
      behind.map Contribution.function, others, List.map_append, List.map_append, id, profiled, rfl⟩
  · obtain ⟨contributions, skipped, settled, rfl⟩ := (aggregate_ok_iff _ _ _ _ _).mp aggregated
    rw [shape] at settled
    obtain ⟨-, rfl, -⟩ := Transcript.settle_ok_parts policy _ _ _ settled
    refine ⟨_, rfl, fun skipped listed => ?_⟩
    obtain ⟨failure, failed, rfl⟩ := List.mem_map.mp listed
    exact blames failure (.inl (adds.failures ▸ failed))

end Aggregated

/-- An expression can be evaluated if and only if there is its greatest counter. Therefore a
function that was read, and whose record has enough counters, is kept out of a report by nothing but
the line on which one of its code regions ends, or by an earlier mapping of the same function. -/
theorem enough_counters_suffice :
    (∀ (counters : List Count) (expr : Expr), expr.depth ≤ 64 →
      ((∃ count, expr.evaluate counters = .ok count) ↔ expr.maxCounter = none ∨
        ∃ index, expr.maxCounter = some index ∧ index.toNat < counters.length)) ∧
    ∀ (reading policy : Policy) (fold : LineFold) (data : Bytes) (profile : Profile)
      (mappings : Mappings) (before after : List FunctionMapping) (mapping : FunctionMapping)
      (record : FunctionRecord),
      Mappings.parse reading data = .ok mappings →
      mappings.functions = before ++ mapping :: after →
      matchRecord profile mapping = .ok (some record) →
      mapping.numCounters ≤ record.counters.length →
      ((∃ contribution, evaluate mapping (some record) = .ok contribution) ↔
        ∀ region ∈ mapping.regions, region.kind = .code → region.stop.line.toNat ≤ 2 ^ 24) ∧
      (mapping.id ∈ before.map FunctionMapping.id →
        aggregate policy fold profile mappings =
          aggregate policy fold profile { mappings with functions := before ++ after }) ∧
      (mapping.id ∉ before.map FunctionMapping.id →
        (∀ region ∈ mapping.regions, region.kind = .code → region.stop.line.toNat ≤ 2 ^ 24) →
          Reported policy fold profile mappings mapping.id) := by
  refine ⟨fun counters expr shallow => ?_, ?_⟩
  · rw [Expr.evaluate_ok_iff counters expr shallow, Expr.below_iff]
  intro reading policy fold data profile mappings before after mapping record parsed shape matched
    enough
  have member : mapping ∈ mappings.functions := shape ▸ List.mem_append_right _ List.mem_cons_self
  obtain ⟨size, formed⟩ := Mappings.functions_well_formed reading data mappings parsed mapping member
  have evaluated := evaluate_ok_iff formed enough
  refine ⟨evaluated, fun repeated => ?_, fun first within => ?_⟩
  · rw [aggregate_eq, aggregate_eq, shape, first_of_repeated [] before after mapping (.inr repeated)]
    rfl
  · obtain ⟨contribution, found⟩ := evaluated.mpr within
    have counts : mapping ∈ firstOf [] mappings.functions :=
      shape ▸ mem_first_of_append [] before after mapping List.not_mem_nil first
    exact evaluated_reported policy fold profile mappings counts matched found

/-- A function that refers to two counters, one whose record is too short, and the first once
more. -/
def suppliedSection : Bytes :=
  Section.magic .little ++ [12, 0, 0, 0, 3, 0, 0, 0, 5, 0, 0, 0, 1, 2, 0, 1, 97, 0, 0, 0] ++
    [1, 102, 7, 0, 0, 0, 0, 0, 0, 0, 16, 0, 0, 0, 1, 0, 1, 1, 5, 2] ++
      [1, 1, 1, 2, 2, 3, 1, 1, 0, 9] ++
    [1, 103, 9, 0, 0, 0, 0, 0, 0, 0, 9, 0, 0, 0, 1, 0, 0, 1, 29, 1, 1, 0, 2] ++
    [1, 102, 7, 0, 0, 0, 0, 0, 0, 0, 9, 0, 0, 0, 1, 0, 0, 1, 1, 1, 1, 0, 2]

def suppliedFunction : FunctionMapping :=
  ⟨"f", 7, .v12, ["a"], [⟨0, ⟨1, 1⟩, ⟨3, 2⟩, .code, .counter 0, none, none⟩,
    ⟨0, ⟨2, 1⟩, ⟨2, 9⟩, .code, .add (.counter 0) (.counter 1), none, none⟩]⟩

def shortOfCounters : FunctionMapping :=
  ⟨"g", 9, .v12, ["a"], [⟨0, ⟨1, 1⟩, ⟨1, 2⟩, .code, .counter 7, none, none⟩]⟩

def suppliedAgain : FunctionMapping :=
  ⟨"f", 7, .v12, ["a"], [⟨0, ⟨1, 1⟩, ⟨1, 2⟩, .code, .counter 0, none, none⟩]⟩

def twoCounters : FunctionRecord := ⟨"f", 7, [3, 4], none⟩

def suppliedProfile : Profile :=
  { Profile.empty .indexed with records := [twoCounters, ⟨"g", 9, [5], none⟩] }

theorem enough_counters_suffice_supplied : ∃ mappings report,
    Mappings.parse .strict suppliedSection = .ok mappings ∧
      mappings.functions.map FunctionMapping.numCounters = [2, 8, 1] ∧
      (¬ ∃ count, (Expr.counter 7).evaluate [5] = .ok count) ∧
      Reported .bestEffort .sum suppliedProfile mappings ⟨"f", 7⟩ ∧
      aggregate .bestEffort .sum suppliedProfile mappings =
        aggregate .bestEffort .sum suppliedProfile ⟨[suppliedFunction, shortOfCounters], []⟩ ∧
      aggregate .bestEffort .sum suppliedProfile mappings = .ok report ∧
      report.functions = [⟨"f", 7, some "a", 3, true⟩] ∧
      report.skipped.map Skipped.function = [some ⟨"g", 9⟩] := by
  have parsed : Mappings.parse .strict suppliedSection =
      .ok ⟨[suppliedFunction, shortOfCounters, suppliedAgain], []⟩ := by decide +kernel
  have short : ¬ ∃ count, (Expr.counter 7).evaluate [5] = .ok count := by
    rw [enough_counters_suffice.1 [5] (.counter 7) (by decide)]
    rintro (constant | ⟨index, same, known⟩)
    · cases constant
    · cases same
      exact absurd known (by decide)
  obtain ⟨-, -, reported⟩ := enough_counters_suffice.2 .strict .bestEffort .sum suppliedSection
    suppliedProfile _ [] [shortOfCounters, suppliedAgain] suppliedFunction twoCounters parsed rfl rfl
    (by decide)
  obtain ⟨-, dropped, -⟩ := enough_counters_suffice.2 .strict .bestEffort .sum suppliedSection
    suppliedProfile _ [suppliedFunction, shortOfCounters] [] suppliedAgain twoCounters parsed rfl rfl
    (by decide)
  exact ⟨_, _, parsed, rfl, short, reported List.not_mem_nil (by decide), dropped (by decide), rfl,
    rfl, rfl⟩

end Coverage

end ExecCounts
