import ExecCounts.Proofs.Transcript

set_option autoImplicit false

namespace ExecCounts

variable {α β γ δ : Type}

/-- Best effort gives what strict reading gives, and more only by leaving something out. -/
structure Refines (parse : Policy → Except Failure α) (skipped : α → List Skipped) : Prop where
  agrees : ∀ result, parse .strict = .ok result ↔
    parse .bestEffort = .ok result ∧ skipped result = []
  skips : ∀ failure, parse .strict = .error failure →
    (∃ other, parse .bestEffort = .error other) ∨
      ∃ result rest, parse .bestEffort = .ok result ∧
        skipped result = .ofFailure failure :: rest

namespace Refines

theorem after {first : Except Failure δ} {next : δ → Policy → Except Failure α}
    {skipped : α → List Skipped} (each : ∀ value, Refines (next value) skipped) :
    Refines (fun policy => first >>= fun value => next value policy) skipped := by
  cases first with
  | ok value => exact each value
  | error failure =>
      refine ⟨fun result => ⟨nofun, nofun⟩, fun other failed => .inl ⟨failure, rfl⟩⟩

end Refines

namespace Transcript

theorem settle_best_effort (transcript : Transcript α β) :
    transcript.settle .bestEffort = transcript.outcome.map fun _ =>
      (transcript.values, transcript.failures.map .ofFailure) := by
  rw [settle, gather_best_effort]
  cases transcript.outcome <;> rfl

theorem settle_strict (transcript : Transcript α β) :
    transcript.settle .strict = match transcript.failures with
      | [] => transcript.outcome.map fun _ => (transcript.values, [])
      | failure :: _ => .error failure := by
  obtain ⟨entries, outcome⟩ := transcript
  induction entries with
  | nil => cases outcome <;> rfl
  | cons entry rest ih =>
      cases entry with
      | error failure => rfl
      | ok value =>
          rw [failures_cons_ok, values_cons_ok]
          cases later : (⟨rest, outcome⟩ : Transcript α β).failures with
          | nil =>
              rw [later] at ih
              cases outcome with
              | error failure => exact settle_cons_ok_error .strict value ⟨rest, _⟩ failure ih
              | ok result => exact settle_cons_ok .strict value ⟨rest, _⟩ _ _ ih
          | cons failure others =>
              rw [later] at ih
              exact settle_cons_ok_error .strict value ⟨rest, outcome⟩ failure ih

theorem settle_ok_parts (policy : Policy) (transcript : Transcript α β) (values : List α)
    (skipped : List Skipped) (settled : transcript.settle policy = .ok (values, skipped)) :
    values = transcript.values ∧ skipped = transcript.failures.map .ofFailure ∧
      (policy = .strict → skipped = []) ∧ ∃ result, transcript.outcome = .ok result := by
  cases policy with
  | strict =>
      rw [settle_strict] at settled
      cases failed : transcript.failures with
      | nil =>
          rw [failed] at settled
          obtain ⟨result, ended, same⟩ := (map_ok_iff _ _ _).mp settled
          cases same
          exact ⟨rfl, rfl, fun _ => rfl, result, ended⟩
      | cons failure others =>
          rw [failed] at settled
          cases settled
  | bestEffort =>
      rw [settle_best_effort] at settled
      obtain ⟨result, ended, same⟩ := (map_ok_iff _ _ _).mp settled
      cases same
      exact ⟨rfl, rfl, nofun, result, ended⟩

theorem settle_error_parts (policy : Policy) (transcript : Transcript α β) (failure : Failure)
    (settled : transcript.settle policy = .error failure) :
    failure ∈ transcript.failures ∨ transcript.outcome = .error failure := by
  cases policy with
  | strict =>
      rw [settle_strict] at settled
      cases failed : transcript.failures with
      | nil =>
          rw [failed] at settled
          exact .inr ((map_error_iff _ _ _).mp settled)
      | cons first others =>
          rw [failed] at settled
          cases settled
          exact .inl List.mem_cons_self
  | bestEffort =>
      rw [settle_best_effort] at settled
      exact .inr ((map_error_iff _ _ _).mp settled)

theorem settle_of_same_failures (policy : Policy) (first second : Transcript α β)
    (failures : first.failures = second.failures) (outcome : first.outcome = second.outcome) :
    second.settle policy = (first.settle policy).map fun found => (second.values, found.2) := by
  cases policy with
  | strict =>
      rw [settle_strict, settle_strict, failures, outcome]
      cases second.failures with
      | nil => cases second.outcome <;> rfl
      | cons failure others => rfl
  | bestEffort =>
      rw [settle_best_effort, settle_best_effort, failures, outcome]
      cases second.outcome <;> rfl

theorem settle_with_values (policy : Policy) (transcript : Transcript α γ) (f : α → β) :
    (transcript.withValues f).settle policy =
      (transcript.settle policy).map fun found => (found.1.map f, found.2) := by
  cases policy with
  | strict =>
      rw [settle_strict, settle_strict, failures_with_values, values_with_values]
      cases transcript.failures with
      | nil => cases ended : transcript.outcome <;> simp only [withValues, ended] <;> rfl
      | cons failure others => rfl
  | bestEffort =>
      rw [settle_best_effort, settle_best_effort, failures_with_values, values_with_values]
      cases ended : transcript.outcome <;> simp only [withValues, ended] <;> rfl

theorem settle_refines (transcript : Transcript α β) (build : List α × List Skipped → γ)
    (skipped : γ → List Skipped) (kept : ∀ gathered, skipped (build gathered) = gathered.2) :
    Refines (fun policy => transcript.settle policy >>= fun gathered => pure (build gathered))
      skipped := by
  have strict := settle_strict transcript
  have bestEffort := settle_best_effort transcript
  cases ended : transcript.outcome with
  | error failure =>
      -- Whatever was read before the end, best effort has no result.
      rw [ended] at bestEffort strict
      constructor
      · intro result
        rw [bestEffort, strict]
        cases transcript.failures <;> exact ⟨nofun, nofun⟩
      · intro other _
        rw [bestEffort]
        exact .inl ⟨failure, rfl⟩
  | ok last =>
      rw [ended] at bestEffort strict
      cases failed : transcript.failures with
      | nil =>
          rw [failed] at bestEffort strict
          constructor
          · intro result
            rw [bestEffort, strict]
            refine ⟨fun same => ⟨same, ?_⟩, fun both => both.1⟩
            cases same
            exact kept _
          · intro other refused
            rw [strict] at refused
            cases refused
      | cons failure others =>
          rw [failed] at bestEffort strict
          constructor
          · intro result
            rw [bestEffort, strict]
            refine ⟨nofun, fun both => ?_⟩
            cases both.1
            have listed := both.2
            rw [kept] at listed
            cases listed
          · intro other refused
            rw [strict] at refused
            cases refused
            rw [bestEffort]
            exact .inr ⟨_, others.map .ofFailure, rfl, kept _⟩

theorem length_values_failures (entries : List (Except Failure α)) (outcome : Except Failure β) :
    (values ⟨entries, outcome⟩).length + (failures ⟨entries, outcome⟩).length =
      entries.length := by
  induction entries with
  | nil => rfl
  | cons entry rest ih =>
      rw [values, failures] at ih ⊢
      cases entry with
      | ok value =>
          simp only [List.filterMap_cons, List.length_cons] at ih ⊢
          omega
      | error failure =>
          simp only [List.filterMap_cons, List.length_cons] at ih ⊢
          omega

theorem settle_length (transcript : Transcript α β) (values : List α) (skipped : List Skipped)
    (settled : transcript.settle .bestEffort = .ok (values, skipped)) :
    values.length + skipped.length = transcript.entries.length ∧
      ∃ result, transcript.outcome = .ok result := by
  obtain ⟨rfl, rfl, -, ended⟩ := settle_ok_parts _ transcript values skipped settled
  rw [List.length_map]
  exact ⟨length_values_failures transcript.entries transcript.outcome, ended⟩

end Transcript

/-- All values but the one at an index are left, in their order. In its place there is another one,
or it is left out. -/
def SparedBut (index : Nat) (values left : List α) (skipped : List Skipped) : Prop :=
  (∃ value, left = values.set index value ∧ skipped = []) ∨
    ∃ entry, left = values.eraseIdx index ∧ skipped = [entry]

namespace Transcript

theorem settle_set (values : List α) (index : Nat) (known : index < values.length)
    (entry : Except Failure α) (result : β) : ∃ left skipped,
      settle .bestEffort ⟨(values.map .ok).set index entry, .ok result⟩ = .ok (left, skipped) ∧
        SparedBut index values left skipped := by
  cases entry with
  | ok value =>
      refine ⟨values.set index value, [], ?_, .inl ⟨value, rfl, rfl⟩⟩
      rw [← List.map_set]
      exact settle_ok .bestEffort _ result
  | error failure =>
      refine ⟨values.eraseIdx index, [.ofFailure failure], ?_, .inr ⟨_, rfl, rfl⟩⟩
      induction values generalizing index with
      | nil => cases known
      | cons value values ih =>
          cases index with
          | zero =>
              have others := gather_ok .bestEffort [.ofFailure failure] values
              change gather .bestEffort [.ofFailure failure] (values.map .ok) >>= _ = _
              rw [others]
              rfl
          | succ index =>
              exact settle_cons_ok .bestEffort value _ _ _ (ih index (Nat.lt_of_succ_lt_succ known))

end Transcript

end ExecCounts
