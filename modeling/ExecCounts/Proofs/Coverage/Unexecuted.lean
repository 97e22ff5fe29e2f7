import ExecCounts.Proofs.Ascending
import ExecCounts.Proofs.Coverage.EnoughCounters
import ExecCounts.Proofs.Utf8.Order

set_option autoImplicit false

namespace ExecCounts

theorem FunctionRecord.context_of_id (first second : FunctionRecord) (same : first.id = second.id) :
    first.isContextSensitive = second.isContextSensitive := by
  have hashes : first.hash = second.hash := congrArg FunctionId.hash same
  rw [isContextSensitive, isContextSensitive, hashes]

namespace Coverage

def SetAside (profile : Profile) (id : FunctionId) : Prop :=
  ∃ record ∈ profile.records, record.isContextSensitive = true ∧ record.id = id

instance (profile : Profile) (id : FunctionId) : Decidable (SetAside profile id) :=
  inferInstanceAs (Decidable (∃ _ ∈ _, _))

theorem record_of_none_iff (profile : Profile) (id : FunctionId) :
    recordOf profile id = none ↔
      ∀ record ∈ profile.records, record.id = id → record.isContextSensitive = true := by
  rw [recordOf, List.find?_eq_none]
  refine forall₂_congr fun record _ => ?_
  rw [Bool.and_eq_true, Bool.not_eq_true', beq_iff_eq, and_comm, not_and, Bool.not_eq_false]

theorem record_of_set_aside (profile : Profile) (id : FunctionId) (aside : SetAside profile id) :
    recordOf profile id = none := by
  obtain ⟨marked, -, context, rfl⟩ := aside
  rw [record_of_none_iff]
  intro record _ same
  rw [record.context_of_id marked same, context]

theorem unprofiled_iff (profile : Profile) (id : FunctionId) :
    id ∉ profile.records.map FunctionRecord.id ↔
      recordOf profile id = none ∧ ¬ SetAside profile id := by
  rw [record_of_none_iff, List.mem_map]
  constructor
  · intro missing
    refine ⟨fun record listed same => absurd ⟨record, listed, same⟩ missing, ?_⟩
    rintro ⟨record, listed, -, same⟩
    exact missing ⟨record, listed, same⟩
  · rintro ⟨marked, unmarked⟩ ⟨record, listed, same⟩
    exact unmarked ⟨record, listed, marked record listed same, same⟩

theorem first_of_ids (mappings : List FunctionMapping) (id : FunctionId) :
    (∃ mapping ∈ firstOf [] mappings, mapping.id = id) ↔ ∃ mapping ∈ mappings, mapping.id = id := by
  have found := first_of_find (·.id == id) (fun a b same => by rw [same]) [] mappings
    fun _ _ => nofun
  have some_iff : ∀ listed : List FunctionMapping,
      (listed.find? (·.id == id)).isSome ↔ ∃ mapping ∈ listed, mapping.id = id := by
    intro listed
    simp only [List.find?_isSome, beq_iff_eq]
  rw [← some_iff, ← some_iff, found]

theorem mem_unexecuted (profile : Profile) (mappings : Mappings) (id : FunctionId) :
    id ∈ unexecutedFunctions profile mappings ↔
      (∃ mapping ∈ mappings.functions, mapping.id = id) ∧
        recordOf profile id = none ∧ ¬ SetAside profile id := by
  rw [unexecutedFunctions, FunctionId.sorted, mem_ascending, List.mem_filter, List.mem_map,
    Bool.not_eq_true', ← Bool.not_eq_true, List.contains_iff_mem, unprofiled_iff]

section Aggregated

variable {fold : LineFold} {profile : Profile} {mappings : Mappings} {report : Report}
  (aggregated : aggregate .strict fold profile mappings = .ok report)

include aggregated

theorem strict_functions : List.Forall₂ (fun mapping coverage =>
    coverage.id = mapping.id ∧ coverage.hasProfile = (recordOf profile mapping.id).isSome)
      (firstOf [] mappings.functions) report.functions := by
  obtain ⟨contributions, skipped, settled, rfl⟩ := (aggregate_ok_iff _ _ _ _ _).mp aggregated
  obtain ⟨rfl, listed, none_skipped, ended⟩ := Transcript.settle_ok_parts _ _ _ _ settled
  obtain ⟨⟨⟩, finished⟩ := ended
  have none_failed : (transcript profile (firstOf [] mappings.functions)).failures = [] := by
    rw [none_skipped rfl] at listed
    exact List.map_eq_nil_iff.mp listed.symm
  have all := (transcript_entries _ _ finished).symm.trans
    (Transcript.entries_of_failures_nil _ _ none_failed)
  rw [← List.forall₂_eq_eq_eq, List.forall₂_map_left_iff, List.forall₂_map_right_iff] at all
  rw [reportOf, List.forall₂_map_right_iff]
  refine all.imp fun mapping contribution entry => ?_
  exact evaluate_function ((map_error_ok_iff _ _ _).mp entry)

theorem unprofiled_functions (id : FunctionId) :
    (∃ coverage ∈ report.functions, coverage.hasProfile = false ∧ coverage.id = id) ↔
      (∃ mapping ∈ mappings.functions, mapping.id = id) ∧ recordOf profile id = none := by
  have each := strict_functions aggregated
  rw [← first_of_ids]
  constructor
  · rintro ⟨coverage, listed, unprofiled, rfl⟩
    obtain ⟨mapping, first, same, profiled⟩ := forall₂_exists each.flip coverage listed
    rw [profiled, ← same, Option.isSome_eq_false_iff, Option.isNone_iff_eq_none] at unprofiled
    exact ⟨⟨mapping, first, same.symm⟩, unprofiled⟩
  · rintro ⟨⟨mapping, first, rfl⟩, unmatched⟩
    obtain ⟨coverage, listed, same, profiled⟩ := forall₂_exists each mapping first
    rw [unmatched] at profiled
    exact ⟨coverage, listed, profiled, same⟩

/-- A report looks for a record that is not context sensitive, the list for any record. So the two
agree exactly if no function that is mapped has a context sensitive record. -/
theorem unexecuted_functions_unprofiled :
    (unexecutedFunctions profile mappings).Pairwise FunctionId.Before ∧
    (∀ id, id ∈ unexecutedFunctions profile mappings ↔
      (∃ coverage ∈ report.functions, coverage.hasProfile = false ∧ coverage.id = id) ∧
        ¬ SetAside profile id) ∧
    (unexecutedFunctions profile mappings = FunctionId.sorted
        ((report.functions.filter fun coverage => !coverage.hasProfile).map FunctionCoverage.id) ↔
      ∀ mapping ∈ mappings.functions, ¬ SetAside profile mapping.id) := by
  have member (id : FunctionId) : id ∈ unexecutedFunctions profile mappings ↔
      (∃ coverage ∈ report.functions, coverage.hasProfile = false ∧ coverage.id = id) ∧
        ¬ SetAside profile id := by
    rw [mem_unexecuted, unprofiled_functions aggregated, and_assoc]
  have listed (id : FunctionId) : id ∈ FunctionId.sorted ((report.functions.filter fun coverage =>
      !coverage.hasProfile).map FunctionCoverage.id) ↔
        ∃ coverage ∈ report.functions, coverage.hasProfile = false ∧ coverage.id = id := by
    rw [FunctionId.sorted, mem_ascending, List.mem_map]
    simp only [List.mem_filter, Bool.not_eq_true', and_assoc]
  refine ⟨?_, member, ?_, ?_⟩
  · exact (ascending_ascending _).imp fun order => (FunctionId.before_iff _ _).mpr order
  · intro same mapping mapped aside
    have unprofiled := (unprofiled_functions aggregated mapping.id).mpr
      ⟨⟨mapping, mapped, rfl⟩, record_of_set_aside profile _ aside⟩
    rw [← listed, ← same, member] at unprofiled
    exact unprofiled.2 aside
  · intro none_aside
    -- Both lists ascend, so that they are equal if they have the same members.
    apply ascending_unique _ _ (ascending_ascending _) (ascending_ascending _)
    intro id
    change id ∈ unexecutedFunctions profile mappings ↔ id ∈ FunctionId.sorted _
    rw [member, listed, and_iff_left_of_imp]
    intro unprofiled
    obtain ⟨⟨mapping, mapped, rfl⟩, -⟩ := (unprofiled_functions aggregated id).mp unprofiled
    exact none_aside mapping mapped

end Aggregated

def contextMapped : Mappings where
  functions := [
    ⟨"main", 0x1000000000000001, .v14, ["a.c"],
      [⟨0, ⟨1, 1⟩, ⟨3, 2⟩, .code, .counter 0, none, none⟩]⟩,
    ⟨"g", 2, .v14, ["a.c"], [⟨0, ⟨4, 1⟩, ⟨5, 9⟩, .code, .counter 0, none, none⟩]⟩,
    ⟨"h", 3, .v14, ["a.c"], [⟨0, ⟨6, 1⟩, ⟨6, 2⟩, .code, .counter 7, none, none⟩]⟩]
  skipped := []

def contextRecorded : Profile :=
  { Profile.empty .indexed with
    records := [⟨"main", 0x1000000000000001, [100], none⟩, ⟨"g", 2, [5], none⟩] }

theorem unexecuted_functions_unprofiled_context : ∃ report : Report,
    aggregate .strict .max contextRecorded contextMapped = .ok report ∧
      report.functions.map FunctionCoverage.hasProfile = [false, true, false] ∧
      SetAside contextRecorded ⟨"main", 0x1000000000000001⟩ ∧
      (⟨"h", 3⟩ ∈ unexecutedFunctions contextRecorded contextMapped ↔
        (∃ coverage ∈ report.functions, coverage.hasProfile = false ∧ coverage.id = ⟨"h", 3⟩) ∧
          ¬ SetAside contextRecorded ⟨"h", 3⟩) ∧
      (unexecutedFunctions contextRecorded contextMapped = FunctionId.sorted
          ((report.functions.filter fun coverage => !coverage.hasProfile).map
            FunctionCoverage.id) ↔
        ∀ mapping ∈ contextMapped.functions, ¬ SetAside contextRecorded mapping.id) := by
  have aggregated : (aggregate .strict .max contextRecorded contextMapped).isOk = true := rfl
  obtain ⟨report, made⟩ := (is_ok_iff _).mp aggregated
  obtain ⟨-, member, agree⟩ := unexecuted_functions_unprofiled made
  refine ⟨report, made, ?_, by decide, member ⟨"h", 3⟩, agree⟩
  cases made
  rfl

theorem set_aside_unlisted : ∃ report : Report,
    aggregate .strict .max contextRecorded contextMapped = .ok report ∧
      unexecutedFunctions contextRecorded contextMapped = [⟨"h", 3⟩] ∧
      unexecutedFunctions contextRecorded contextMapped ≠ FunctionId.sorted
        ((report.functions.filter fun coverage => !coverage.hasProfile).map
          FunctionCoverage.id) := by
  have unexecuted : unexecutedFunctions contextRecorded contextMapped = [⟨"h", 3⟩] := by
    decide +kernel
  refine ⟨_, rfl, unexecuted, fun same => ?_⟩
  have listed : ⟨"main", 0x1000000000000001⟩ ∈ unexecutedFunctions contextRecorded contextMapped := by
    rw [same, FunctionId.sorted, mem_ascending]
    exact List.mem_cons_self
  rw [unexecuted] at listed
  exact absurd listed (by decide)

end Coverage

end ExecCounts
