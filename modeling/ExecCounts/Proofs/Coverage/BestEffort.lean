import ExecCounts.Proofs.Coverage.Reference
import ExecCounts.Proofs.Policy

set_option autoImplicit false

namespace ExecCounts.Coverage

def Mismatched (profile : Profile) (mapping : FunctionMapping) : Prop :=
  (∃ record ∈ profile.records,
    record.isContextSensitive = false ∧ record.name = mapping.name) ∧
  ∀ record ∈ profile.records, record.isContextSensitive = false →
    record.name = mapping.name → record.hash ≠ mapping.hash

instance (profile : Profile) (mapping : FunctionMapping) : Decidable (Mismatched profile mapping) :=
  inferInstanceAs (Decidable (_ ∧ _))

def isEvaluable (profile : Profile) (mappings : Mappings) (id : FunctionId) : Bool :=
  ((mappings.get? id).bind (countedFunction profile)).isSome

def evaluableOnly (profile : Profile) (mappings : Mappings) : Mappings :=
  { mappings with functions :=
      mappings.functions.filter fun mapping => isEvaluable profile mappings mapping.id }

def failing (profile : Profile) (mappings : Mappings) : List FunctionId :=
  ((firstOf [] mappings.functions).map FunctionMapping.id).filter fun id =>
    !isEvaluable profile mappings id

section FirstOf

theorem mem_first_of (seen : List FunctionId) (mappings : List FunctionMapping)
    (mapping : FunctionMapping) (member : mapping ∈ firstOf seen mappings) :
    mapping ∈ mappings ∧ mapping.id ∉ seen := by
  induction mappings generalizing seen with
  | nil => cases member
  | cons first rest ih =>
      rw [firstOf] at member
      split at member
      · obtain ⟨listed, unseen⟩ := ih seen member
        exact ⟨List.mem_cons_of_mem _ listed, unseen⟩
      · rename_i unseen
        obtain rfl | later := List.mem_cons.mp member
        · exact ⟨List.mem_cons_self, unseen⟩
        · obtain ⟨listed, other⟩ := ih (first.id :: seen) later
          exact ⟨List.mem_cons_of_mem _ listed, fun known => other (List.mem_cons_of_mem _ known)⟩

theorem find_first_of (seen : List FunctionId) (mappings : List FunctionMapping)
    (mapping : FunctionMapping) (member : mapping ∈ firstOf seen mappings) :
    mappings.find? (·.id == mapping.id) = some mapping := by
  induction mappings generalizing seen with
  | nil => cases member
  | cons first rest ih =>
      rw [firstOf] at member
      split at member
      · rename_i known
        have other : first.id ≠ mapping.id := fun same =>
          (mem_first_of seen rest mapping member).2 (same ▸ known)
        rw [List.find?_cons_of_neg (by simpa using other)]
        exact ih seen member
      · obtain rfl | later := List.mem_cons.mp member
        · exact List.find?_cons_of_pos (by simp)
        · have other : first.id ≠ mapping.id := fun same =>
            (mem_first_of _ rest mapping later).2 (same ▸ List.mem_cons_self)
          rw [List.find?_cons_of_neg (by simpa using other)]
          exact ih _ later

theorem first_of_find (holds : FunctionMapping → Bool)
    (byId : ∀ a b : FunctionMapping, a.id = b.id → holds a = holds b) (seen : List FunctionId)
    (mappings : List FunctionMapping)
    (unseen : ∀ mapping ∈ mappings, mapping.id ∈ seen → holds mapping = false) :
    (firstOf seen mappings).find? holds = mappings.find? holds := by
  induction mappings generalizing seen with
  | nil => rfl
  | cons first rest ih =>
      obtain ⟨own, others⟩ := List.forall_mem_cons.mp unseen
      rw [firstOf]
      split
      · rename_i known
        rw [ih seen others, List.find?_cons_of_neg (by rw [own known]; exact Bool.false_ne_true)]
      · rw [List.find?_cons, List.find?_cons]
        cases found : holds first with
        | true => rfl
        | false =>
            refine ih _ fun mapping listed known => ?_
            obtain same | known := List.mem_cons.mp known
            · rw [byId mapping first same, found]
            · exact others mapping listed known

theorem first_of_filter (keep : FunctionId → Bool) (seen left : List FunctionId)
    (mappings : List FunctionMapping) (agree : ∀ id, keep id → (id ∈ seen ↔ id ∈ left)) :
    firstOf left (mappings.filter fun mapping => keep mapping.id) =
      (firstOf seen mappings).filter fun mapping => keep mapping.id := by
  induction mappings generalizing seen left with
  | nil => rfl
  | cons first rest ih =>
      rw [firstOf, List.filter_cons]
      by_cases kept : keep first.id
      · rw [if_pos kept, firstOf]
        by_cases known : first.id ∈ seen
        · rw [if_pos known, if_pos ((agree _ kept).mp known), ih seen left agree]
        · rw [if_neg known, if_neg (fun other => known ((agree _ kept).mpr other)),
            List.filter_cons, if_pos kept]
          refine congrArg _ (ih _ _ fun id keeps => ?_)
          rw [List.mem_cons, List.mem_cons, agree id keeps]
      · rw [if_neg kept]
        by_cases known : first.id ∈ seen
        · rw [if_pos known, ih seen left agree]
        · rw [if_neg known, List.filter_cons, if_neg kept]
          refine ih _ _ fun id keeps => ?_
          have other : id ≠ first.id := fun same => kept (same ▸ keeps)
          rw [List.mem_cons, agree id keeps, or_iff_right other]

end FirstOf

section Matched

variable {profile : Profile} {mapping : FunctionMapping}

theorem mismatched_iff : Mismatched profile mapping ↔
    candidates profile mapping.name ≠ [] ∧ recordOf profile mapping.id = none := by
  rw [← candidates_find, List.find?_eq_none]
  simp only [Mismatched, candidates, ne_eq, List.filter_eq_nil_iff, List.mem_filter, Bool.and_eq_true,
    Bool.not_eq_true', beq_iff_eq, not_forall, not_not, and_imp, exists_prop]

theorem match_record_fits (fits : ¬ Mismatched profile mapping) :
    matchRecord profile mapping = .ok (recordOf profile mapping.id) := by
  rw [matchRecord, candidates_find]
  cases found : recordOf profile mapping.id with
  | some record => rfl
  | none =>
      have unknown : candidates profile mapping.name = [] := by
        by_contra known
        exact fits (mismatched_iff.mpr ⟨known, found⟩)
      rw [unknown]
      rfl

theorem match_record_mismatched (mismatched : Mismatched profile mapping) :
    ∃ failure, matchRecord profile mapping = .error failure ∧
      failure.kind = .profileBinaryMismatch ∧ failure.function = some mapping.id := by
  obtain ⟨known, unmatched⟩ := mismatched_iff.mp mismatched
  rw [matchRecord, candidates_find, unmatched]
  dsimp only
  rw [if_neg (by simpa using known)]
  exact ⟨_, rfl, rfl, rfl⟩

theorem mismatched_by_id (a b : FunctionMapping) (same : a.id = b.id) :
    decide (Mismatched profile a) = decide (Mismatched profile b) := by
  have names : a.name = b.name := congrArg FunctionId.name same
  rw [decide_eq_decide, mismatched_iff, mismatched_iff, same, names]

end Matched

section Failures

theorem evaluate_within_error (counters : List Count) (levels : Nat) (expr : Expr)
    (failure : Failure) (failed : expr.evaluateWithin counters levels = .error failure) :
    failure.kind = .corruptMapping := by
  induction levels generalizing expr with
  | zero =>
      rw [Expr.evaluateWithin] at failed
      cases failed
      rfl
  | succ levels ih =>
      cases expr with
      | zero => cases failed
      | counter index =>
          rw [Expr.evaluateWithin] at failed
          split at failed
          · cases failed
          · cases failed
            rfl
      | add left right | subtract left right =>
          rw [Expr.evaluateWithin, bind_error_iff] at failed
          obtain failed | ⟨a, -, failed⟩ := failed
          · exact ih left failed
          · rw [bind_error_iff] at failed
            obtain failed | ⟨b, -, failed⟩ := failed
            · exact ih right failed
            · cases failed

theorem evaluate_region_error (mapping : FunctionMapping) (counters : Option (List Count))
    (region : Region) (failure : Failure)
    (failed : evaluateRegion mapping counters region = .error failure) :
    failure.kind = .corruptMapping := by
  unfold evaluateRegion at failed
  cases counters
  case' none => dsimp only [pure_bind] at failed
  case' some counters =>
    dsimp only at failed
    rw [bind_error_iff] at failed
    obtain failed | ⟨count, -, failed⟩ := failed
    · exact evaluate_within_error _ _ _ failure failed
  -- With or without a count, the region has to be in a file.
  all_goals
    split at failed
    · cases failed
      rfl
    · split at failed
      · cases failed
        rfl
      · cases failed

theorem evaluate_error (mapping : FunctionMapping) (record : Option FunctionRecord)
    (failure : Failure) (failed : evaluate mapping record = .error failure) :
    failure.kind = .corruptMapping := by
  rw [evaluate, bind_error_iff] at failed
  obtain failed | ⟨segments, -, failed⟩ := failed
  · obtain ⟨region, -, failed⟩ := map_m_error failed
    exact evaluate_region_error _ _ region failure failed
  · cases failed

end Failures

def entryOf (profile : Profile) (mapping : FunctionMapping) : Except Failure Contribution :=
  (evaluate mapping (recordOf profile mapping.id)).mapError (·.inFunction mapping.id)

theorem entry_ok (profile : Profile) (mapping : FunctionMapping) :
    (entryOf profile mapping).isOk = (countedFunction profile mapping).isSome := by
  have counted := evaluate_counted profile mapping
  rw [entryOf]
  cases evaluated : evaluate mapping (recordOf profile mapping.id) with
  | ok contribution =>
      rw [evaluated] at counted
      obtain ⟨found, same, -⟩ := Option.map_eq_some_iff.mp counted.symm
      rw [same]
      rfl
  | error failure =>
      rw [evaluated] at counted
      rw [Option.map_eq_none_iff.mp counted.symm]
      rfl

theorem entry_error (profile : Profile) (mapping : FunctionMapping) (failure : Failure)
    (failed : entryOf profile mapping = .error failure) :
    failure.function = some mapping.id ∧ failure.kind = .corruptMapping := by
  rw [entryOf] at failed
  cases evaluated : evaluate mapping (recordOf profile mapping.id) with
  | ok contribution =>
      rw [evaluated] at failed
      cases failed
  | error own =>
      rw [evaluated] at failed
      cases failed
      exact ⟨rfl, evaluate_error _ _ own evaluated⟩

theorem transcript_complete (profile : Profile) (mappings : List FunctionMapping)
    (fits : ∀ mapping ∈ mappings, ¬ Mismatched profile mapping) :
    transcript profile mappings = ⟨mappings.map (entryOf profile), .ok ()⟩ := by
  induction mappings with
  | nil => rfl
  | cons mapping rest ih =>
      obtain ⟨own, others⟩ := List.forall_mem_cons.mp fits
      rw [transcript, match_record_fits own, ih others]
      rfl

theorem transcript_stopped (profile : Profile) (mappings : List FunctionMapping)
    (first : FunctionMapping)
    (found : mappings.find? (fun mapping => Mismatched profile mapping) = some first) :
    ∃ failure, (transcript profile mappings).outcome = .error failure ∧
      failure.kind = .profileBinaryMismatch ∧ failure.function = some first.id := by
  induction mappings with
  | nil => cases found
  | cons mapping rest ih =>
      rw [transcript]
      by_cases mismatched : Mismatched profile mapping
      · rw [List.find?_cons_of_pos (by simpa using mismatched)] at found
        cases found
        obtain ⟨failure, matched, blamed⟩ := match_record_mismatched mismatched
        rw [matched]
        exact ⟨failure, rfl, blamed⟩
      · rw [List.find?_cons_of_neg (by simpa using mismatched)] at found
        rw [match_record_fits mismatched]
        exact ih found

section Kept

variable (profile : Profile) (mappings : Mappings)

theorem evaluable_first (mapping : FunctionMapping)
    (member : mapping ∈ firstOf [] mappings.functions) :
    isEvaluable profile mappings mapping.id = (entryOf profile mapping).isOk := by
  have own : mappings.get? mapping.id = some mapping := find_first_of [] _ mapping member
  rw [isEvaluable, own, entry_ok, Option.bind_some]

theorem first_of_evaluable : firstOf [] (evaluableOnly profile mappings).functions =
    (firstOf [] mappings.functions).filter fun mapping => (entryOf profile mapping).isOk := by
  rw [evaluableOnly, first_of_filter (isEvaluable profile mappings) [] [] _ fun _ _ => Iff.rfl]
  exact List.filter_congr (evaluable_first profile mappings)

theorem failing_eq : failing profile mappings = ((firstOf [] mappings.functions).filter
    fun mapping => !(entryOf profile mapping).isOk).map FunctionMapping.id := by
  rw [failing, List.filter_map]
  refine congrArg _ (List.filter_congr fun mapping member => ?_)
  rw [Function.comp_apply, evaluable_first profile mappings mapping member]

end Kept

section Aggregated

variable (fold : LineFold) (profile : Profile) (mappings : Mappings)

def reportOf (contributions : List Contribution) (skipped : List Skipped) : Report where
  lines := reportLines fold (contributions.flatMap Contribution.segments)
  functions := contributions.map Contribution.function
  skipped := profile.skipped ++ mappings.skipped ++ skipped

theorem aggregate_mismatched (first : FunctionMapping)
    (found : mappings.functions.find? (fun mapping => Mismatched profile mapping) = some first) :
    ∃ failure, aggregate .bestEffort fold profile mappings = .error failure ∧
      failure.kind = .profileBinaryMismatch ∧ failure.function = some first.id := by
  rw [← first_of_find _ mismatched_by_id [] _ fun _ _ => nofun] at found
  obtain ⟨failure, stopped, blamed⟩ := transcript_stopped profile _ first found
  refine ⟨failure, ?_, blamed⟩
  rw [aggregate, first_mappings_eq, Transcript.settle_best_effort, stopped]
  rfl

theorem aggregate_matched (fits : ∀ mapping ∈ mappings.functions, ¬ Mismatched profile mapping) :
    ∃ clean entries,
      aggregate .strict fold profile (evaluableOnly profile mappings) = .ok clean ∧
      aggregate .bestEffort fold profile mappings =
        .ok { clean with skipped := profile.skipped ++ mappings.skipped ++ entries } ∧
      List.Forall₂ (fun id entry => entry.function = some id ∧ entry.kind = .corruptMapping)
        (failing profile mappings) entries := by
  have firstFits : ∀ mapping ∈ firstOf [] mappings.functions, ¬ Mismatched profile mapping :=
    fun mapping member => fits mapping (mem_first_of [] _ mapping member).1
  let settled : Transcript Contribution Unit :=
    ⟨(firstOf [] mappings.functions).map (entryOf profile), .ok ()⟩
  refine ⟨reportOf fold profile mappings settled.values [],
    settled.failures.map Skipped.ofFailure, ?_, ?_, ?_⟩
  · rw [aggregate, first_mappings_eq, first_of_evaluable, transcript_complete profile _
      fun mapping member => firstFits mapping (List.mem_of_mem_filter member),
      Transcript.settle_strict, Transcript.failures_map_filter, Transcript.values_map_filter]
    rfl
  · rw [aggregate, first_mappings_eq, transcript_complete profile _ firstFits,
      Transcript.settle_best_effort]
    rfl
  · rw [failing_eq, List.forall₂_map_left_iff, List.forall₂_map_right_iff]
    exact Transcript.failures_map _ _ _ (entry_error profile)

theorem best_effort_drops_failing :
    ((∃ failure, aggregate .bestEffort fold profile mappings = .error failure) ↔
      ∃ mapping ∈ mappings.functions, Mismatched profile mapping) ∧
    (∀ failure, aggregate .bestEffort fold profile mappings = .error failure →
      failure.kind = .profileBinaryMismatch ∧ ∃ first,
        mappings.functions.find? (fun mapping => Mismatched profile mapping) = some first ∧
          failure.function = some first.id) ∧
    (∀ report, aggregate .bestEffort fold profile mappings = .ok report → ∃ clean entries,
      aggregate .strict fold profile (evaluableOnly profile mappings) = .ok clean ∧
        report.lines = clean.lines ∧ report.functions = clean.functions ∧
        report.skipped = profile.skipped ++ mappings.skipped ++ entries ∧
        List.Forall₂ (fun id entry => entry.function = some id ∧ entry.kind = .corruptMapping)
          (failing profile mappings) entries) := by
  cases found : mappings.functions.find? fun mapping => Mismatched profile mapping with
  | some first =>
      obtain ⟨failure, stopped, kind, function⟩ :=
        aggregate_mismatched fold profile mappings first found
      have mismatched : Mismatched profile first := by simpa using List.find?_some found
      rw [stopped]
      refine ⟨⟨fun _ => ?_, fun _ => ⟨failure, rfl⟩⟩, ?_, ?_⟩
      · exact ⟨first, List.mem_of_find?_eq_some found, mismatched⟩
      · intro other same
        cases same
        exact ⟨kind, first, rfl, function⟩
      · intro report same
        cases same
  | none =>
      have fits : ∀ mapping ∈ mappings.functions, ¬ Mismatched profile mapping := by
        simpa using found
      obtain ⟨clean, entries, strict, settled, listed⟩ :=
        aggregate_matched fold profile mappings fits
      rw [settled]
      refine ⟨⟨?_, ?_⟩, ?_, ?_⟩
      · rintro ⟨failure, same⟩
        cases same
      · rintro ⟨mapping, member, mismatched⟩
        exact (fits mapping member mismatched).elim
      · intro failure same
        cases same
      · intro report same
        cases same
        exact ⟨clean, entries, strict, rfl, rfl, rfl, listed⟩

end Aggregated

/-- The last region of the first function cannot be counted, in the mapping that counts for it. -/
def lateFailure : Mappings where
  functions := [
    ⟨"f", 1, .v14, ["a.c"], [⟨0, ⟨1, 1⟩, ⟨3, 2⟩, .code, .counter 0, none, none⟩,
      ⟨0, ⟨4, 1⟩, ⟨5, 9⟩, .code, .counter 7, none, none⟩]⟩,
    ⟨"g", 2, .v14, ["a.c"], [⟨0, ⟨2, 1⟩, ⟨2, 2⟩, .code, .counter 0, none, none⟩]⟩,
    ⟨"f", 1, .v14, ["a.c"], [⟨0, ⟨1, 1⟩, ⟨3, 2⟩, .code, .counter 0, none, none⟩]⟩]
  skipped := []

def bothExecuted : Profile :=
  { Profile.empty .indexed with records := [⟨"f", 1, [3], none⟩, ⟨"g", 2, [5], none⟩] }

def otherBinary : Profile :=
  { Profile.empty .indexed with records := [⟨"g", 4, [5], none⟩] }

theorem best_effort_drops_failing_late : ∃ report clean failure,
    aggregate .bestEffort .sum bothExecuted lateFailure = .ok report ∧
      aggregate .strict .sum bothExecuted (evaluableOnly bothExecuted lateFailure) = .ok clean ∧
      report.lines = clean.lines ∧ report.functions = [⟨"g", 2, some "a.c", 5, true⟩] ∧
      report.skipped.map Skipped.function = [some ⟨"f", 1⟩] ∧
      aggregate .bestEffort .sum otherBinary lateFailure = .error failure ∧
      failure.kind = .profileBinaryMismatch ∧ failure.function = some ⟨"g", 2⟩ := by
  obtain ⟨-, -, kept⟩ := best_effort_drops_failing .sum bothExecuted lateFailure
  obtain ⟨clean, -, strict, lines, -⟩ := kept _ rfl
  obtain ⟨mismatch, blamed, -⟩ := best_effort_drops_failing .sum otherBinary lateFailure
  obtain ⟨failure, stopped⟩ := mismatch.mpr (by decide)
  obtain ⟨kind, first, found, function⟩ := blamed failure stopped
  cases found
  exact ⟨_, clean, failure, rfl, strict, lines, rfl, rfl, stopped, kind, function⟩

end ExecCounts.Coverage
