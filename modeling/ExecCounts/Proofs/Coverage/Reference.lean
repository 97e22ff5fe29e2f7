import ExecCounts.Proofs.Coverage.Lines
import ExecCounts.Proofs.Transcript

set_option autoImplicit false

namespace ExecCounts.Coverage

def firstOf : List FunctionId → List FunctionMapping → List FunctionMapping
  | _, [] => []
  | seen, mapping :: rest =>
      if mapping.id ∈ seen then firstOf seen rest
      else mapping :: firstOf (mapping.id :: seen) rest

def recordOf (profile : Profile) (id : FunctionId) : Option FunctionRecord :=
  profile.records.find? fun record => !record.isContextSensitive && record.id == id

def regionCount (record : Option FunctionRecord) (region : Region) : Option Count :=
  match record with
  | none => some 0
  | some record => (region.counter.evaluate record.counters).toOption

def countedRegion (mapping : FunctionMapping) (record : Option FunctionRecord) (region : Region) :
    Option FileSegment :=
  match regionCount record region, mapping.filenames[region.fileId.toNat]? with
  | some count, some filename =>
      if region.stop.line.toNat ≤ maxLine then
        some ⟨filename, max region.start.line.toNat 1, region.stop.line.toNat, count⟩
      else none
  | _, _ => none

structure CountedFunction where
  mapping : FunctionMapping
  record : Option FunctionRecord
  regions : List FileSegment

def countedFunction (profile : Profile) (mapping : FunctionMapping) : Option CountedFunction :=
  let record := recordOf profile mapping.id
  ((mapping.regions.filter (·.kind == .code)).mapM (countedRegion mapping record)).map fun regions =>
    ⟨mapping, record, regions⟩

def countedFunctions (profile : Profile) (mappings : List FunctionMapping) : List CountedFunction :=
  (firstOf [] mappings).filterMap (countedFunction profile)

def CountedFunction.coverage (counted : CountedFunction) : FunctionCoverage where
  name := counted.mapping.name
  hash := counted.mapping.hash
  filename := counted.mapping.filenames.head?
  executionCount := (counted.regions.head?.map fun region => region.segment.count).getD 0
  hasProfile := counted.record.isSome

def regionsOn (regions : List FileSegment) (filename : String) (number : Nat) : List FileSegment :=
  regions.filter fun region => region.filename = filename ∧ region.segment.first ≤ number ∧
    number ≤ region.segment.last

structure Accurate (fold : LineFold) (regions : List FileSegment) (lines : List LineCoverage) :
    Prop where
  sorted : lines.Pairwise fun a b =>
    a.filename < b.filename ∨ a.filename = b.filename ∧ a.number < b.number
  listed : ∀ (filename : String) (number : Nat),
    (∃ line ∈ lines, line.filename = filename ∧ line.number = number) ↔
      1 ≤ number ∧ ∃ region ∈ regions, region.filename = filename ∧ number ≤ region.segment.last
  executable : ∀ line ∈ lines, line.isExecutable = true ↔
    ∃ region ∈ regions, region.filename = line.filename ∧ region.segment.first ≤ line.number ∧
      line.number ≤ region.segment.last
  counted : ∀ line ∈ lines, line.isExecutable = true →
    line.count = fold.combined ((regionsOn regions line.filename line.number).map (·.segment.count))
  uncounted : ∀ line ∈ lines, line.isExecutable = false → line.count = 0

theorem first_of_eq (seen : List FunctionId) (mappings : List FunctionMapping) :
    firstOf seen mappings = firstMappings (mappings.filter fun mapping => mapping.id ∉ seen) := by
  induction mappings generalizing seen with
  | nil => rfl
  | cons mapping rest ih =>
      by_cases again : mapping.id ∈ seen
      · rw [firstOf, if_pos again, ih, List.filter_cons_of_neg (by simpa using again)]
      · rw [firstOf, if_neg again, ih, List.filter_cons_of_pos (by simpa using again),
          firstMappings, firstMappings, List.eraseDupsBy_cons, List.filter_filter]
        congr 2
        apply List.filter_congr
        intro other _
        simp

theorem first_mappings_eq (mappings : List FunctionMapping) :
    firstMappings mappings = firstOf [] mappings := by
  have all : (mappings.filter fun mapping => mapping.id ∉ ([] : List FunctionId)) = mappings :=
    List.filter_eq_self.mpr fun _ _ => by simp
  rw [first_of_eq, all]

theorem candidates_find (profile : Profile) (mapping : FunctionMapping) :
    (candidates profile mapping.name).find? (·.hash == mapping.hash) =
      recordOf profile mapping.id := by
  rw [candidates, List.find?_filter, recordOf]
  congr 1
  funext record
  rw [Bool.eq_iff_iff]
  simp [FunctionRecord.id, FunctionMapping.id, and_assoc]

theorem match_record_ok (profile : Profile) (mapping : FunctionMapping)
    (record : Option FunctionRecord) (matched : matchRecord profile mapping = .ok record) :
    record = recordOf profile mapping.id := by
  rw [matchRecord, candidates_find] at matched
  cases found : recordOf profile mapping.id with
  | some first =>
      rw [found] at matched
      exact (Except.ok.inj matched).symm
  | none =>
      rw [found] at matched
      dsimp only at matched
      split at matched
      · exact (Except.ok.inj matched).symm
      · cases matched

theorem transcript_entries (profile : Profile) (mappings : List FunctionMapping)
    (finished : (transcript profile mappings).outcome = .ok ()) :
    (transcript profile mappings).entries = mappings.map fun mapping =>
      (evaluate mapping (recordOf profile mapping.id)).mapError (·.inFunction mapping.id) := by
  induction mappings with
  | nil => rfl
  | cons mapping rest ih =>
      rw [transcript] at finished ⊢
      cases matched : matchRecord profile mapping with
      | error failure =>
          rw [matched] at finished
          cases finished
      | ok record =>
          rw [matched] at finished
          rw [List.map_cons, ← match_record_ok profile mapping record matched]
          exact congrArg (List.cons _) (ih finished)

theorem evaluate_region_counted (mapping : FunctionMapping) (record : Option FunctionRecord)
    (region : Region) :
    (evaluateRegion mapping (record.map FunctionRecord.counters) region).toOption =
      countedRegion mapping record region := by
  unfold evaluateRegion countedRegion
  cases record with
  | none =>
      simp only [Option.map_none, regionCount]
      cases mapping.filenames[region.fileId.toNat]? with
      | none => rfl
      | some filename =>
          by_cases large : maxLine < region.stop.line.toNat
          · simp only [if_pos large, if_neg (Nat.not_le.mpr large)]
            rfl
          · simp only [if_neg large, if_pos (Nat.not_lt.mp large)]
            rfl
  | some record =>
      simp only [Option.map_some, regionCount]
      cases region.counter.evaluate record.counters with
      | error failure => rfl
      | ok count =>
          cases mapping.filenames[region.fileId.toNat]? with
          | none => rfl
          | some filename =>
              by_cases large : maxLine < region.stop.line.toNat
              · simp only [if_pos large, if_neg (Nat.not_le.mpr large)]
                rfl
              · simp only [if_neg large, if_pos (Nat.not_lt.mp large)]
                rfl

theorem evaluate_counted (profile : Profile) (mapping : FunctionMapping) :
    (evaluate mapping (recordOf profile mapping.id)).toOption =
      (countedFunction profile mapping).map fun counted => ⟨counted.coverage, counted.regions⟩ := by
  rw [evaluate, to_option_bind, to_option_map_m, countedFunction, Option.map_map]
  have each : (fun region => (evaluateRegion mapping
      ((recordOf profile mapping.id).map FunctionRecord.counters) region).toOption) =
        countedRegion mapping (recordOf profile mapping.id) :=
    funext (evaluate_region_counted mapping (recordOf profile mapping.id))
  rw [each]
  cases (mapping.regions.filter (·.kind == .code)).mapM
    (countedRegion mapping (recordOf profile mapping.id)) <;> rfl

theorem counted_region_placed (mapping : FunctionMapping) (record : Option FunctionRecord)
    (region : Region) (counted : FileSegment)
    (found : countedRegion mapping record region = some counted) :
    1 ≤ counted.segment.first ∧ counted.segment.last < LineEvent.lastLine := by
  rw [countedRegion] at found
  split at found
  · split at found
    · rename_i within
      cases found
      exact ⟨Nat.le_max_right _ _, Nat.lt_of_le_of_lt within (by decide)⟩
    · cases found
  · cases found

theorem map_m_some_mem {α β : Type} (f : α → Option β) (values : List α) (results : List β)
    (all : values.mapM f = some results) (result : β) (member : result ∈ results) :
    ∃ value, f value = some result := by
  induction values generalizing results with
  | nil =>
      cases all
      cases member
  | cons value rest ih =>
      rw [List.mapM_cons] at all
      cases first : f value with
      | none =>
          rw [first] at all
          cases all
      | some head =>
          cases others : rest.mapM f with
          | none =>
              rw [first, others] at all
              cases all
          | some tail =>
              rw [first, others] at all
              cases all
              rcases List.mem_cons.mp member with rfl | later
              · exact ⟨value, first⟩
              · exact ih tail others later

theorem counted_functions_placed (profile : Profile) (mappings : List FunctionMapping) :
    ∀ region ∈ (countedFunctions profile mappings).flatMap CountedFunction.regions,
      1 ≤ region.segment.first ∧ region.segment.last < LineEvent.lastLine := by
  intro region member
  obtain ⟨counted, listed, held⟩ := List.mem_flatMap.mp member
  obtain ⟨mapping, -, found⟩ := List.mem_filterMap.mp listed
  obtain ⟨regions, all, rfl⟩ := Option.map_eq_some_iff.mp found
  obtain ⟨source, sourceFound⟩ := map_m_some_mem _ _ _ all region held
  exact counted_region_placed mapping _ source region sourceFound

theorem covering_in_file (regions : List FileSegment) (filename : String) (number : Nat) :
    covering (inFile filename regions) number =
      (regionsOn regions filename number).map FileSegment.segment := by
  rw [covering, inFile, regionsOn, List.filter_map, List.filter_filter]
  congr 1
  apply List.filter_congr
  intro region _
  rw [Bool.eq_iff_iff]
  simp [and_comm]

theorem regions_on_nonempty (regions : List FileSegment) (filename : String) (number : Nat) :
    (regionsOn regions filename number).isEmpty = false ↔ ∃ region ∈ regions,
      region.filename = filename ∧ region.segment.first ≤ number ∧
        number ≤ region.segment.last := by
  rw [List.isEmpty_eq_false_iff_exists_mem]
  constructor
  · rintro ⟨region, member⟩
    obtain ⟨listed, covers⟩ := List.mem_filter.mp member
    exact ⟨region, listed, of_decide_eq_true covers⟩
  · rintro ⟨region, listed, covers⟩
    exact ⟨region, List.mem_filter.mpr ⟨listed, decide_eq_true covers⟩⟩

theorem report_lines_accurate (fold : LineFold) (regions : List FileSegment)
    (placed : ∀ region ∈ regions,
      1 ≤ region.segment.first ∧ region.segment.last < LineEvent.lastLine) :
    Accurate fold regions (reportLines fold regions) where
  sorted := report_lines_sorted fold regions placed
  listed := by
    intro filename number
    constructor
    · rintro ⟨line, member, rfl, rfl⟩
      obtain ⟨positive, ⟨segment, held, below⟩, -⟩ :=
        (mem_report_lines fold regions placed line).mp member
      exact ⟨positive, _, (mem_in_file regions line.filename segment).mp held, rfl, below⟩
    · rintro ⟨positive, region, listed, rfl, below⟩
      let line := coveredLine fold region.filename (inFile region.filename regions) number
      refine ⟨line, (mem_report_lines fold regions placed line).mpr ⟨positive, ?_, rfl⟩, rfl, rfl⟩
      exact ⟨region.segment, (mem_in_file regions region.filename region.segment).mpr listed, below⟩
  executable := by
    intro line member
    have same := ((mem_report_lines fold regions placed line).mp member).2.2
    rw [← regions_on_nonempty, same, coveredLine, covering_in_file, List.isEmpty_map]
    simp
  counted := by
    intro line member _
    have same := ((mem_report_lines fold regions placed line).mp member).2.2
    rw [same, coveredLine, covering_in_file, List.map_map]
    rfl
  uncounted := by
    intro line member uncovered
    have same := ((mem_report_lines fold regions placed line).mp member).2.2
    rw [same, coveredLine] at uncovered ⊢
    have nothing : covering (inFile line.filename regions) line.number = [] := by
      simpa using uncovered
    simp only [nothing, List.map_nil, combined_nil]

theorem contributions_counted (profile : Profile) (mappings : List FunctionMapping) :
    ((firstMappings mappings).map fun mapping => (evaluate mapping
      (recordOf profile mapping.id)).mapError (·.inFunction mapping.id)).filterMap
        Except.toOption = (countedFunctions profile mappings).map fun counted =>
          ⟨counted.coverage, counted.regions⟩ := by
  rw [countedFunctions, first_mappings_eq, List.filterMap_map, List.map_filterMap]
  apply List.filterMap_congr
  intro mapping _
  rw [Function.comp_apply, to_option_map_error, evaluate_counted]

theorem aggregate_reference (policy : Policy) (fold : LineFold) (profile : Profile)
    (mappings : Mappings) (report : Report)
    (aggregated : aggregate policy fold profile mappings = .ok report) :
    Accurate fold ((countedFunctions profile mappings.functions).flatMap
        CountedFunction.regions) report.lines ∧
      report.functions =
        (countedFunctions profile mappings.functions).map CountedFunction.coverage := by
  rw [aggregate, bind_ok_iff] at aggregated
  obtain ⟨⟨contributions, skipped⟩, settled, shape⟩ := aggregated
  cases (pure_ok_iff _ _).mp shape
  obtain ⟨values, result, finished⟩ := Transcript.settle_values _ _ _ _ settled
  rw [transcript_entries _ _ finished, contributions_counted] at values
  have regions : contributions.flatMap Contribution.segments =
      (countedFunctions profile mappings.functions).flatMap CountedFunction.regions := by
    rw [values, List.flatMap_map]
  have functions : contributions.map Contribution.function =
      (countedFunctions profile mappings.functions).map CountedFunction.coverage := by
    rw [values, List.map_map]
    rfl
  refine ⟨?_, functions⟩
  rw [← regions]
  apply report_lines_accurate
  rw [regions]
  exact counted_functions_placed profile mappings.functions

def sharedFile : Mappings where
  functions := [
    ⟨"f", 1, .v14, ["a.c"], [⟨0, ⟨1, 1⟩, ⟨3, 2⟩, .code, .counter 0, none, none⟩,
      ⟨0, ⟨2, 1⟩, ⟨2, 9⟩, .code, .add (.counter 0) (.counter 1), none, none⟩]⟩,
    ⟨"g", 2, .v14, ["a.c"], [⟨0, ⟨0, 1⟩, ⟨2, 2⟩, .code, .counter 7, none, none⟩]⟩]
  skipped := []

def firstExecuted : Profile :=
  { Profile.empty .indexed with records := [⟨"f", 1, [3, 4], none⟩] }

theorem aggregate_reference_shared : ∃ report : Report,
    aggregate .strict .sum firstExecuted sharedFile = .ok report ∧
      Accurate .sum ((countedFunctions firstExecuted sharedFile.functions).flatMap
          CountedFunction.regions) report.lines ∧
        report.functions = [⟨"f", 1, some "a.c", 3, true⟩, ⟨"g", 2, some "a.c", 0, false⟩] :=
  ⟨_, rfl, aggregate_reference .strict .sum firstExecuted sharedFile _ rfl⟩

end ExecCounts.Coverage
