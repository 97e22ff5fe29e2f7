import ExecCounts.Proofs.Outcome
import ExecCounts.Proofs.Taken

set_option autoImplicit false

namespace ExecCounts

/-- A sum or a product that is no word, a difference below zero, a division by zero and a slice from
outside of where it should be are faults, at which a program stops, in contrast to the failures by
which it rejects its input. -/
inductive Halt where
  | fault
  | failure (cause : Failure)
deriving DecidableEq, Repr

def Halt.amend (context : Failure → Failure) : Halt → Halt
  | .fault => .fault
  | .failure cause => .failure (context cause)

abbrev Guarded := EStateM Halt Cursor

namespace Guarded

instance : MonadLift (Except Failure) (Except Halt) := ⟨fun computed => computed.mapError .failure⟩

instance : MonadLift Read Guarded := ⟨fun value => EStateM.adaptExcept .failure value⟩

instance : MonadLift (Except Halt) Guarded where
  monadLift
    | .ok value => pure value
    | .error halt => throw halt

section Operations

def word (n : Nat) : Except Halt Nat := if n < UInt64.size then .ok n else .error .fault

def add (a b : Nat) : Except Halt Nat := word (a + b)

def mul (a b : Nat) : Except Halt Nat := word (a * b)

def sub (a b : Nat) : Except Halt Nat := if b ≤ a then .ok (a - b) else .error .fault

def div (a b : Nat) : Except Halt Nat := if b = 0 then .error .fault else .ok (a / b)

def rem (a b : Nat) : Except Halt Nat := if b = 0 then .error .fault else .ok (a % b)

def word? (n : Nat) : Option Nat := if n < UInt64.size then some n else none

def sub? (a b : Nat) : Option Nat := if b ≤ a then some (a - b) else none

def slice (data : Bytes) (start stop first last : Nat) : Except Halt Bytes :=
  if start ≤ first ∧ first ≤ last ∧ last ≤ stop ∧ stop ≤ data.length then
    .ok ((data.drop first).take (last - first))
  else .error .fault

variable {a b : Nat}

theorem add_ok (small : a + b < UInt64.size) : add a b = .ok (a + b) := if_pos small

theorem mul_ok (small : a * b < UInt64.size) : mul a b = .ok (a * b) := if_pos small

theorem sub_ok (above : b ≤ a) : sub a b = .ok (a - b) := if_pos above

theorem div_ok (some : 0 < b) : div a b = .ok (a / b) := if_neg (Nat.ne_of_gt some)

theorem rem_ok (some : 0 < b) : rem a b = .ok (a % b) := if_neg (Nat.ne_of_gt some)

theorem slice_ok {data : Bytes} {start stop first last : Nat} (above : start ≤ first)
    (ordered : first ≤ last) (below : last ≤ stop) (within : stop ≤ data.length) :
    slice data start stop first last = .ok ((data.drop first).take (last - first)) :=
  if_pos ⟨above, ordered, below, within⟩

theorem word_exceeds_iff {n limit : Nat} (small : limit < UInt64.size) :
    (word? n).all (limit < ·) = true ↔ limit < n := by
  rw [word?]
  split
  · simp
  · next large =>
      simp only [Option.all_none, true_iff]
      omega

end Operations

section Outcomes

variable {α β : Type}

def Same (guarded : Except Halt α) (plain : Except Failure α) : Prop :=
  guarded = plain.mapError .failure

theorem same_lift (plain : Except Failure α) : Same (monadLift plain) plain := rfl

theorem same_bind {first : Except Halt α} {firstPlain : Except Failure α} {next : α → Except Halt β}
    {nextPlain : α → Except Failure β} (head : Same first firstPlain)
    (tail : ∀ value, firstPlain = .ok value → Same (next value) (nextPlain value)) :
    Same (first >>= next) (firstPlain >>= nextPlain) := by
  rw [Same] at head ⊢
  rw [head]
  cases ran : firstPlain with
  | error failure => rfl
  | ok value => exact tail value ran

theorem same_after {first : Except Halt α} {value : α} {next : α → Except Halt β}
    {plain : Except Failure β} (ran : first = .ok value) (rest : Same (next value) plain) :
    Same (first >>= next) plain := by
  rw [ran]
  exact rest

theorem same_amend {guarded : Except Halt α} {plain : Except Failure α} (context : Failure → Failure)
    (same : Same guarded plain) : Same (guarded.mapError (Halt.amend context)) (plain.mapError context) := by
  rw [Same] at same ⊢
  rw [same]
  cases plain <;> rfl

theorem same_map_m {guarded : α → Except Halt β} {plain : α → Except Failure β} (values : List α)
    (each : ∀ value ∈ values, Same (guarded value) (plain value)) :
    Same (values.mapM guarded) (values.mapM plain) := by
  induction values with
  | nil => rfl
  | cons value rest ih =>
      obtain ⟨own, others⟩ := List.forall_mem_cons.mp each
      rw [List.mapM_cons, List.mapM_cons]
      exact same_bind own fun first _ => same_bind (ih others) fun others _ => rfl

end Outcomes

section Reads

variable {α β : Type} {cursor : Cursor}

def SameAt (guarded : Guarded α) (plain : Read α) (cursor : Cursor) : Prop :=
  guarded cursor = EStateM.adaptExcept Halt.failure plain cursor

theorem lift_same_at (plain : Read α) : SameAt (monadLift plain) plain cursor := rfl

theorem bind_same_at {first : Guarded α} {firstPlain : Read α} {next : α → Guarded β}
    {nextPlain : α → Read β} (head : SameAt first firstPlain cursor)
    (tail : ∀ value middle, firstPlain cursor = .ok value middle →
      SameAt (next value) (nextPlain value) middle) :
    SameAt (first >>= next) (firstPlain >>= nextPlain) cursor := by
  rw [SameAt] at head ⊢
  cases ran : firstPlain cursor with
  | error failure middle =>
      rw [EStateM.adaptExcept, ran] at head
      have failed := (run_bind_error_iff firstPlain nextPlain cursor failure middle).mpr (.inl ran)
      rw [EStateM.adaptExcept, failed]
      exact (run_bind_error_iff first next cursor _ middle).mpr (.inl head)
  | ok value middle =>
      rw [EStateM.adaptExcept, ran] at head
      rw [run_bind_of_ok head, EStateM.adaptExcept, run_bind_of_ok ran]
      exact tail value middle ran

theorem same_at_past {first : Guarded α} {value : α} {next : α → Guarded β} {plain : Read β}
    (ran : first cursor = .ok value cursor) (rest : SameAt (next value) plain cursor) :
    SameAt (first >>= next) plain cursor := by
  rw [SameAt, run_bind_of_ok ran]
  exact rest

theorem same_at_after {first : Except Halt α} {value : α} {next : α → Guarded β} {plain : Read β}
    (ran : first = .ok value) (rest : SameAt (next value) plain cursor) :
    SameAt (monadLift first >>= next) plain cursor :=
  same_at_past (by rw [ran]; rfl) rest

theorem check_same_at {condition plainCondition : Prop} [Decidable condition]
    [Decidable plainCondition] {failure : Failure} {next : β → Guarded α} {nextPlain : β → Read α}
    {guarded : Guarded α} {plain : Read α} (alike : condition ↔ plainCondition)
    (passed : ¬ plainCondition → SameAt guarded plain cursor) :
    SameAt (if condition then throw (Halt.failure failure) >>= next else guarded)
      (if plainCondition then throw failure >>= nextPlain else plain) cursor := by
  by_cases failed : plainCondition
  · rw [if_pos failed, if_pos (alike.mpr failed)]
    rfl
  · rw [if_neg failed, if_neg (mt alike.mp failed)]
    exact passed failed

theorem times_same_at {guarded : Guarded α} {plain : Read α} (count : Nat)
    (each : ∀ cursor, SameAt guarded plain cursor) :
    SameAt (times count guarded) (times count plain) cursor := by
  induction count generalizing cursor with
  | zero => rfl
  | succ count ih =>
      exact bind_same_at (each cursor) fun first middle _ => bind_same_at ih fun rest _ _ => rfl

end Reads

end Guarded

def Cursor.readGuarded {α : Type} (cursor : Cursor) (value : Guarded α) : Except Halt α :=
  match value cursor with
  | .ok result _ => .ok result
  | .error halt _ => .error halt

theorem Guarded.same_read {α : Type} {cursor : Cursor} {guarded : Guarded α} {plain : Read α}
    (same : SameAt guarded plain cursor) : Same (cursor.readGuarded guarded) (cursor.read plain) := by
  rw [SameAt] at same
  rw [Same, Cursor.readGuarded, Cursor.read, same, EStateM.adaptExcept]
  cases plain cursor <;> rfl

end ExecCounts
