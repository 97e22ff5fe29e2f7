import ExecCounts.Proofs.Policy
import Mathlib.Algebra.GroupWithZero.Nat

set_option autoImplicit false

namespace ExecCounts

variable {σ α β : Type}

section Covers

variable (left : σ → Nat)

/-- A reader takes at least what its result is worth, up to the credit. -/
def Covers (value : EStateM Failure σ α) (credit : Nat) (worth : α → Nat) : Prop :=
  ∀ state result after, value state = .ok result after →
    left after + worth result ≤ left state + credit

variable {left} {credit : Nat}

theorem pure_covers {worth : α → Nat} {value : α} (enough : worth value ≤ credit) :
    Covers left (pure value) credit worth := by
  intro state result after ran
  cases ran
  exact Nat.add_le_add_left enough _

theorem throw_covers (failure : Failure) (worth : α → Nat) :
    Covers left (throw failure) credit worth := by
  intro state result after ran
  cases ran

theorem get_covers : Covers left get credit fun _ => credit := by
  intro state result after ran
  cases ran
  exact Nat.le_refl _

theorem bind_covers {first : EStateM Failure σ α} {next : α → EStateM Failure σ β}
    {between : α → Nat} {worth : β → Nat} (head : Covers left first credit between)
    (tail : ∀ value, Covers left (next value) (between value) worth) :
    Covers left (first >>= next) credit worth := by
  intro state result after ran
  obtain ⟨value, middle, firstRan, nextRan⟩ := (run_bind_ok_iff _ _ _ _ _).mp ran
  exact Nat.le_trans (tail value middle result after nextRan) (head state value middle firstRan)

theorem thrown_covers (failure : Failure) (next : β → EStateM Failure σ α) (worth : α → Nat) :
    Covers left (throw failure >>= next) credit worth := by
  intro state result after ran
  cases ran

theorem check_covers {condition : Prop} [Decidable condition] {failure : Failure}
    {next : β → EStateM Failure σ α} {passed : EStateM Failure σ α} {worth : α → Nat}
    (covers : Covers left passed credit worth) :
    Covers left (if condition then throw failure >>= next else passed) credit worth := by
  by_cases failed : condition
  · rw [if_pos failed]
    exact thrown_covers failure next worth
  · rwa [if_neg failed]

theorem Covers.mono {value : EStateM Failure σ α} {worth less : α → Nat}
    (covers : Covers left value credit worth) (fewer : ∀ result, less result ≤ worth result) :
    Covers left value credit less := by
  intro state result after ran
  exact Nat.le_trans (Nat.add_le_add_left (fewer result) _) (covers state result after ran)

theorem times_covers {action : EStateM Failure σ α} {worth : α → Nat}
    (each : ∀ credit, Covers left action credit fun result => credit + worth result) (n : Nat) :
    Covers left (times n action) credit fun results => credit + (results.map worth).sum := by
  induction n generalizing credit with
  | zero => exact pure_covers (Nat.le_refl _)
  | succ n ih =>
      apply bind_covers (each credit)
      intro first
      apply bind_covers ih
      intro others
      apply pure_covers
      simp only [List.map_cons, List.sum_cons]
      omega

theorem times_covers_length {action : EStateM Failure σ α} {unit : Nat}
    (each : ∀ credit, Covers left action credit fun _ => credit + unit) (n : Nat) :
    Covers left (times n action) credit fun results => credit + unit * results.length := by
  apply (times_covers each n).mono
  intro results
  apply Nat.le_of_eq
  rw [List.map_const', List.sum_replicate_nat, Nat.mul_comm]

end Covers

namespace Transcript

def entryWorth (base : Nat) (worth : α → Nat) : Except Failure α → Nat
  | .ok value => base + worth value
  | .error _ => base

variable {base : Nat} {worth : α → Nat}

theorem sum_entry_worth (entries : List (Except Failure α)) (outcome : Except Failure β) :
    (entries.map (entryWorth base worth)).sum =
      base * ((values ⟨entries, outcome⟩).length + (failures ⟨entries, outcome⟩).length) +
        ((values ⟨entries, outcome⟩).map worth).sum := by
  induction entries with
  | nil => rfl
  | cons entry rest ih =>
      rw [values, failures] at ih ⊢
      cases entry with
      | ok value =>
          simp only [List.map_cons, List.sum_cons, entryWorth, ih, List.filterMap_cons,
            List.length_cons, Nat.mul_add]
          omega
      | error failure =>
          simp only [List.map_cons, List.sum_cons, entryWorth, ih, List.filterMap_cons,
            List.length_cons, Nat.mul_add]
          omega

theorem settled_worth (policy : Policy) (transcript : Transcript α β) (read : List α)
    (skipped : List Skipped) (settled : transcript.settle policy = .ok (read, skipped)) :
    base * (read.length + skipped.length) + (read.map worth).sum =
      (transcript.entries.map (entryWorth base worth)).sum := by
  obtain ⟨rfl, rfl, -⟩ := settle_ok_parts policy transcript read skipped settled
  rw [List.length_map, sum_entry_worth transcript.entries transcript.outcome]

end Transcript

end ExecCounts
