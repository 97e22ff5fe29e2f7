import ExecCounts.FunctionId
import Mathlib.Data.List.Basic

set_option autoImplicit false

namespace ExecCounts

section Reps

variable {α : Type} [BEq α]

theorem erase_reps_loop (entry : α) (rest done : List α) :
    List.eraseRepsBy.loop (· == ·) entry rest done = done.reverse ++ (entry :: rest).eraseReps := by
  rw [List.eraseReps, List.eraseRepsBy]
  induction rest generalizing entry done with
  | nil => simp [List.eraseRepsBy.loop]
  | cons next rest ih =>
      rw [List.eraseRepsBy.loop, List.eraseRepsBy.loop]
      cases entry == next with
      | true => exact ih entry done
      | false =>
          dsimp only
          rw [ih next (entry :: done), ih next [entry], List.reverse_cons, List.append_assoc]
          rfl

theorem erase_reps_cons (entry next : α) (rest : List α) :
    (entry :: next :: rest).eraseReps = if entry == next then (entry :: rest).eraseReps
      else entry :: (next :: rest).eraseReps := by
  rw [List.eraseReps, List.eraseRepsBy, List.eraseRepsBy.loop]
  cases entry == next with
  | true => exact erase_reps_loop entry rest []
  | false => exact erase_reps_loop next rest [entry]

theorem mem_erase_reps [LawfulBEq α] (values : List α) (value : α) :
    value ∈ values.eraseReps ↔ value ∈ values := by
  cases values with
  | nil => rfl
  | cons entry rest =>
      induction rest generalizing entry with
      | nil => rfl
      | cons next rest ih =>
          rw [erase_reps_cons]
          split
          · rename_i same
            obtain rfl : entry = next := eq_of_beq same
            rw [ih entry]
            simp
          · rw [List.mem_cons, ih next, List.mem_cons (l := next :: rest)]

end Reps

theorem mem_ascending {α : Type} [Ord α] [BEq α] [LawfulBEq α] (values : List α) (value : α) :
    value ∈ ascending values ↔ value ∈ values := by
  rw [ascending, mem_erase_reps, List.mem_mergeSort]

section Ascending

variable {α : Type} [Ord α] [Std.TransOrd α] [Std.LawfulEqOrd α]

theorem ascending_unique (first second : List α)
    (firstAscends : first.Pairwise fun a b => compare a b = .lt)
    (secondAscends : second.Pairwise fun a b => compare a b = .lt)
    (same : ∀ value, value ∈ first ↔ value ∈ second) : first = second := by
  have differ : ∀ values : List α, (values.Pairwise fun a b => compare a b = .lt) → values.Nodup := by
    intro values ascends
    refine ascends.imp ?_
    intro a b order equal
    cases equal
    rw [Std.ReflOrd.compare_self] at order
    cases order
  have perm := (List.perm_ext_iff_of_nodup (differ _ firstAscends) (differ _ secondAscends)).mpr same
  apply perm.eq_of_pairwise _ firstAscends secondAscends
  intro a b _ _ below above
  rw [Std.OrientedCmp.gt_of_lt below] at above
  cases above

variable [BEq α] [LawfulBEq α]

theorem erase_reps_ascending (values : List α)
    (sorted : values.Pairwise fun a b => (compare a b).isLE) :
    values.eraseReps.Pairwise fun a b => compare a b = .lt := by
  cases values with
  | nil => exact .nil
  | cons entry rest =>
      induction rest generalizing entry with
      | nil => exact List.pairwise_singleton _ _
      | cons next rest ih =>
          obtain ⟨first, others⟩ := List.pairwise_cons.mp sorted
          rw [erase_reps_cons]
          split
          · obtain ⟨-, later⟩ := List.pairwise_cons.mp others
            refine ih entry (List.pairwise_cons.mpr ⟨?_, later⟩)
            intro value member
            exact first value (List.mem_cons_of_mem _ member)
          · rename_i differ
            refine List.pairwise_cons.mpr ⟨?_, ih next others⟩
            intro value member
            rw [mem_erase_reps] at member
            -- Everything later is at least the next element, which differs from this one.
            have below : compare entry next = .lt := by
              have least := first next List.mem_cons_self
              cases order : compare entry next with
              | lt => rfl
              | eq => exact absurd (beq_iff_eq.mpr (Std.LawfulEqOrd.eq_of_compare order)) differ
              | gt => rw [order] at least; cases least
            rcases List.mem_cons.mp member with rfl | deeper
            · exact below
            · exact Std.TransCmp.lt_of_lt_of_isLE below
                ((List.pairwise_cons.mp others).1 value deeper)

theorem ascending_ascending (values : List α) :
    (ascending values).Pairwise fun a b => compare a b = .lt := by
  apply erase_reps_ascending
  apply List.pairwise_mergeSort
  · intro a b c first second
    exact Std.TransCmp.isLE_trans first second
  · intro a b
    have swapped : compare b a = (compare a b).swap := Std.OrientedCmp.eq_swap
    rw [swapped]
    cases compare a b <;> rfl

end Ascending

end ExecCounts
