import ExecCounts.Proofs.Outcome
import ExecCounts.Transcript

set_option autoImplicit false

namespace ExecCounts.Transcript

variable {α β γ : Type}

theorem and_then_ok (first : Transcript α β) (next : β → Transcript α γ) (value : β)
    (ended : first.outcome = .ok value) : first.andThen next =
      ⟨first.entries ++ (next value).entries, (next value).outcome⟩ := by
  rw [andThen, ended]

theorem and_then_ok_iff (first : Transcript α β) (next : β → Transcript α γ) (result : γ) :
    (first.andThen next).outcome = .ok result ↔
      ∃ value, first.outcome = .ok value ∧ (next value).outcome = .ok result := by
  rw [andThen]
  cases first.outcome with
  | ok value => exact ⟨fun later => ⟨value, rfl, later⟩, fun ⟨_, same, later⟩ => by
      cases same
      exact later⟩
  | error failure => exact ⟨nofun, nofun⟩

theorem gather_ok (policy : Policy) (skipped : List Skipped) (values : List α) :
    gather policy skipped (values.map .ok) = .ok (values, skipped) := by
  induction values with
  | nil => rfl
  | cons value values ih => rw [List.map_cons, gather, ih]; rfl

theorem settle_ok (policy : Policy) (values : List α) (result : β) :
    settle policy ⟨values.map .ok, .ok result⟩ = .ok (values, []) := by
  rw [settle, gather_ok]
  rfl

theorem settle_stopped (policy : Policy) (values : List α) (failure : Failure) :
    settle policy (⟨values.map .ok, .error failure⟩ : Transcript α β) = .error failure := by
  rw [settle, gather_ok]
  rfl

theorem mem_values_iff (transcript : Transcript α β) (value : α) :
    value ∈ transcript.values ↔ .ok value ∈ transcript.entries := by
  rw [values, List.mem_filterMap]
  constructor
  · rintro ⟨entry, listed, read⟩
    cases entry with
    | ok own =>
        cases read
        exact listed
    | error failure => cases read
  · intro listed
    exact ⟨_, listed, rfl⟩

section Entries

variable (entries : List (Except Failure β)) (outcome : Except Failure γ)

theorem values_cons_ok (value : β) :
    values ⟨.ok value :: entries, outcome⟩ = value :: values ⟨entries, outcome⟩ := rfl

theorem failures_cons_ok (value : β) :
    failures ⟨.ok value :: entries, outcome⟩ = failures ⟨entries, outcome⟩ := rfl

end Entries

theorem values_map_filter (f : α → Except Failure β) (inputs : List α) (outcome : Except Failure γ) :
    values ⟨(inputs.filter fun input => (f input).isOk).map f, outcome⟩ =
      values ⟨inputs.map f, outcome⟩ := by
  induction inputs with
  | nil => rfl
  | cons input rest ih =>
      rw [List.filter_cons, List.map_cons]
      cases computed : f input with
      | ok result =>
          rw [Except.isOk, Except.toBool, if_pos rfl, List.map_cons, computed, values_cons_ok,
            values_cons_ok, ih]
      | error failure => exact ih

theorem failures_map_filter (f : α → Except Failure β) (inputs : List α)
    (outcome : Except Failure γ) :
    failures ⟨(inputs.filter fun input => (f input).isOk).map f, outcome⟩ = [] := by
  rw [failures, List.filterMap_map, List.filterMap_eq_nil_iff]
  intro input member
  obtain ⟨result, computed⟩ := (is_ok_iff _).mp (List.mem_filter.mp member).2
  rw [Function.comp_apply, computed]

theorem entries_of_failures_nil (entries : List (Except Failure α)) (outcome : Except Failure β)
    (none : failures ⟨entries, outcome⟩ = []) :
    entries = (values ⟨entries, outcome⟩).map .ok := by
  induction entries with
  | nil => rfl
  | cons entry rest ih =>
      cases entry with
      | ok value => exact congrArg (.ok value :: ·) (ih none)
      | error failure => cases none

theorem failures_map (f : α → Except Failure β) (inputs : List α) (outcome : Except Failure γ)
    {fits : α → Failure → Prop}
    (each : ∀ input failure, f input = .error failure → fits input failure) :
    List.Forall₂ fits (inputs.filter fun input => !(f input).isOk)
      (failures ⟨inputs.map f, outcome⟩) := by
  induction inputs with
  | nil => exact .nil
  | cons input rest ih =>
      rw [List.filter_cons, List.map_cons]
      cases computed : f input with
      | ok result => exact ih
      | error failure => exact .cons (each input failure computed) ih

theorem values_map (f : α → Except Failure β) (inputs : List α) (outcome : Except Failure γ) :
    List.Forall₂ (fun input value => f input = .ok value) (inputs.filter fun input => (f input).isOk)
      (values ⟨inputs.map f, outcome⟩) := by
  induction inputs with
  | nil => exact .nil
  | cons input rest ih =>
      rw [List.filter_cons, List.map_cons]
      cases computed : f input with
      | ok result => exact .cons computed ih
      | error failure => exact ih

theorem values_forall₂ {fits : α → Except Failure β → Prop} {sources : List α}
    {entries : List (Except Failure β)} {outcome : Except Failure γ}
    (each : List.Forall₂ fits sources entries) : ∃ some, some.Sublist sources ∧
      List.Forall₂ (fun source value => fits source (.ok value)) some (values ⟨entries, outcome⟩) := by
  induction each with
  | nil => exact ⟨[], .slnil, .nil⟩
  | @cons source entry sources entries own _ ih =>
      obtain ⟨some, listed, others⟩ := ih
      cases entry with
      | ok value => exact ⟨source :: some, listed.cons_cons source, .cons own others⟩
      | error failure => exact ⟨some, listed.cons source, others⟩

section Choice

variable (chosen : α → Bool) (value : α → β) (failure : α → Failure) (inputs : List α)
  (outcome : Except Failure γ)

theorem values_map_ite :
    values ⟨inputs.map fun input => if chosen input then .ok (value input) else
      .error (failure input), outcome⟩ = (inputs.filter chosen).map value := by
  induction inputs with
  | nil => rfl
  | cons input rest ih =>
      rw [List.map_cons, List.filter_cons]
      split
      · rw [values_cons_ok, ih, List.map_cons]
      · exact ih

theorem failures_map_ite :
    failures ⟨inputs.map fun input => if chosen input then .ok (value input) else
      .error (failure input), outcome⟩ =
        (inputs.filter fun input => !chosen input).map failure := by
  induction inputs with
  | nil => rfl
  | cons input rest ih =>
      rw [List.map_cons, List.filter_cons]
      cases chosen input with
      | true =>
          rw [if_pos rfl, failures_cons_ok, ih]
          rfl
      | false => exact congrArg (failure input :: ·) ih

end Choice

def withValues (transcript : Transcript α γ) (f : α → β) : Transcript β γ :=
  { transcript with entries := transcript.entries.map (Except.map f) }

theorem cons_with_values (entry : Except Failure α) (rest : Transcript α γ) (f : α → β) :
    (cons entry rest).withValues f = cons (entry.map f) (rest.withValues f) := rfl

theorem values_with_values (transcript : Transcript α γ) (f : α → β) :
    (transcript.withValues f).values = transcript.values.map f := by
  rw [values, withValues, List.filterMap_map, values, List.map_filterMap]
  congr 1
  funext entry
  cases entry <;> rfl

theorem failures_with_values (transcript : Transcript α γ) (f : α → β) :
    (transcript.withValues f).failures = transcript.failures := by
  rw [failures, withValues, List.filterMap_map, failures]
  congr 1
  funext entry
  cases entry <;> rfl

theorem settle_cons_ok (policy : Policy) (value : α) (rest : Transcript α β) (values : List α)
    (skipped : List Skipped) (settled : rest.settle policy = .ok (values, skipped)) :
    (cons (.ok value) rest).settle policy = .ok (value :: values, skipped) := by
  rw [settle, bind_ok_iff] at settled ⊢
  obtain ⟨gathered, gatheredOk, settled⟩ := settled
  rw [bind_ok_iff] at settled
  obtain ⟨result, outcome, same⟩ := settled
  cases (pure_ok_iff _ _).mp same
  refine ⟨(value :: values, skipped), ?_, ?_⟩
  · rw [cons, gather, gatheredOk]
    rfl
  · rw [bind_ok_iff]
    exact ⟨result, outcome, rfl⟩

theorem settle_cons_ok_error (policy : Policy) (value : α) (rest : Transcript α β)
    (failure : Failure) (settled : rest.settle policy = .error failure) :
    (cons (.ok value) rest).settle policy = .error failure := by
  rw [settle] at settled ⊢
  rw [cons, gather]
  cases gathered : gather policy [] rest.entries with
  | error other =>
      rw [gathered] at settled
      exact settled
  | ok found =>
      rw [gathered] at settled
      cases ended : rest.outcome with
      | error other =>
          rw [ended] at settled
          exact settled
      | ok result =>
          rw [ended] at settled
          cases settled

theorem settle_append_ok (policy : Policy) (values : List α) (rest : Transcript α β) :
    settle policy ⟨values.map .ok ++ rest.entries, rest.outcome⟩ =
      (rest.settle policy).map fun found => (values ++ found.1, found.2) := by
  induction values with
  | nil =>
      change settle policy rest = _
      cases settle policy rest <;> rfl
  | cons value values ih =>
      cases settled : rest.settle policy with
      | ok found =>
          rw [settled] at ih
          exact settle_cons_ok policy value _ _ _ ih
      | error failure =>
          rw [settled] at ih
          exact settle_cons_ok_error policy value _ failure ih

theorem settle_cons_error (failure : Failure) (rest : Transcript α β) :
    (cons (.error failure) rest).settle .strict = .error failure :=
  rfl

theorem gather_strict_error {fits : Failure → Prop} (skipped : List Skipped)
    (entries : List (Except Failure α)) (each : ∀ failure, .error failure ∈ entries → fits failure)
    (failed : ∃ failure, .error failure ∈ entries) :
    ∃ failure, gather .strict skipped entries = .error failure ∧ fits failure := by
  induction entries with
  | nil =>
      obtain ⟨failure, member⟩ := failed
      cases member
  | cons entry rest ih =>
      cases entry with
      | error failure => exact ⟨failure, rfl, each failure List.mem_cons_self⟩
      | ok value =>
          obtain ⟨failure, member⟩ := failed
          have later := (List.mem_cons.mp member).resolve_left nofun
          obtain ⟨first, stopped, blamed⟩ :=
            ih (fun other listed => each other (List.mem_cons_of_mem _ listed)) ⟨failure, later⟩
          exact ⟨first, by rw [gather, stopped]; rfl, blamed⟩

theorem settle_strict_error {fits : Failure → Prop} (transcript : Transcript α β)
    (each : ∀ failure, .error failure ∈ transcript.entries → fits failure)
    (failed : ∃ failure, .error failure ∈ transcript.entries) :
    ∃ failure, transcript.settle .strict = .error failure ∧ fits failure := by
  obtain ⟨failure, stopped, blamed⟩ := gather_strict_error [] transcript.entries each failed
  exact ⟨failure, by rw [settle, stopped]; rfl, blamed⟩

theorem gather_values (policy : Policy) (skipped skippedAfter : List Skipped)
    (entries : List (Except Failure α)) (values : List α)
    (gathered : gather policy skipped entries = .ok (values, skippedAfter)) :
    values = entries.filterMap Except.toOption := by
  induction entries generalizing skipped values with
  | nil =>
      cases gathered
      rfl
  | cons entry rest ih =>
      cases entry with
      | ok value =>
          rw [gather, bind_ok_iff] at gathered
          obtain ⟨⟨others, last⟩, othersOk, shape⟩ := gathered
          cases (pure_ok_iff _ _).mp shape
          rw [ih skipped others othersOk]
          rfl
      | error failure =>
          rw [gather, bind_ok_iff] at gathered
          obtain ⟨recovered, -, othersOk⟩ := gathered
          exact ih recovered values othersOk

theorem settle_values (policy : Policy) (transcript : Transcript α β) (values : List α)
    (skipped : List Skipped) (settled : transcript.settle policy = .ok (values, skipped)) :
    values = transcript.entries.filterMap Except.toOption ∧
      ∃ result, transcript.outcome = .ok result := by
  rw [settle, bind_ok_iff] at settled
  obtain ⟨gathered, gatheredOk, settled⟩ := settled
  rw [bind_ok_iff] at settled
  obtain ⟨result, outcome, same⟩ := settled
  cases (pure_ok_iff _ _).mp same
  exact ⟨gather_values policy [] _ _ _ gatheredOk, result, outcome⟩

end ExecCounts.Transcript
