import ExecCounts.Partition
import Mathlib.Data.List.Basic

set_option autoImplicit false

namespace ExecCounts

variable {α : Type}

def Partitioned (passes : α → Bool) (entries : List α) : Prop :=
  entries.Pairwise fun earlier later => passes later = true → passes earlier = true

namespace Partitioned

variable {passes : α → Bool} {entries : List α} (parted : Partitioned passes entries)

include parted

theorem filter_append_filter :
    entries.filter passes ++ entries.filter (fun entry => !passes entry) = entries := by
  induction entries with
  | nil => rfl
  | cons entry rest ih =>
      obtain ⟨first, others⟩ := List.pairwise_cons.mp parted
      cases passed : passes entry with
      | true =>
          rw [List.filter_cons_of_pos passed, List.filter_cons_of_neg (by simp [passed]),
            List.cons_append, ih others]
      | false =>
          have fail : ∀ other ∈ rest, passes other = false := by
            intro other listed
            by_contra passes
            rw [Bool.not_eq_false] at passes
            cases passed.symm.trans (first other listed passes)
          have none : (entry :: rest).filter passes = [] := by
            rw [List.filter_eq_nil_iff]
            simpa [passed] using fail
          rw [none, List.nil_append, List.filter_eq_self]
          simpa [passed] using fail

theorem take_count : entries.take (entries.countP passes) = entries.filter passes := by
  nth_rewrite 2 [← parted.filter_append_filter]
  rw [List.countP_eq_length_filter, List.take_left]

theorem drop_count :
    entries.drop (entries.countP passes) = entries.filter fun entry => !passes entry := by
  nth_rewrite 2 [← parted.filter_append_filter]
  rw [List.countP_eq_length_filter, List.drop_left]

theorem get_passes_iff (index : Nat) :
    entries[index]?.any passes = true ↔ index < entries.countP passes := by
  have place : entries[index]? =
      if index < entries.countP passes then (entries.filter passes)[index]?
      else (entries.filter fun entry => !passes entry)[index - entries.countP passes]? := by
    nth_rewrite 1 [← parted.filter_append_filter]
    rw [List.getElem?_append, ← List.countP_eq_length_filter]
  rw [place]
  split
  · next below =>
      have bound : index < (entries.filter passes).length := by
        rwa [← List.countP_eq_length_filter]
      rw [List.getElem?_eq_getElem bound, Option.any_some]
      exact iff_of_true (List.mem_filter.mp (List.getElem_mem bound)).2 below
  · next behind =>
      refine iff_of_false (fun passed => ?_) behind
      obtain ⟨entry, found, passes⟩ := (Option.any_eq_true _ _).mp passed
      have fails := (List.mem_filter.mp (List.mem_of_getElem? found)).2
      rw [passes] at fails
      cases fails

theorem search_between_eq (start stop : Nat) (low : start ≤ entries.countP passes)
    (high : entries.countP passes ≤ stop) :
    searchBetween passes entries.toArray start stop = entries.countP passes := by
  -- The number of entries that pass stays between the bounds.
  fun_induction searchBetween passes entries.toArray start stop with
  | case1 start stop proper middle passed ih =>
      rw [List.getElem?_toArray, parted.get_passes_iff] at passed
      exact ih passed high
  | case2 start stop proper middle failed ih =>
      rw [List.getElem?_toArray, parted.get_passes_iff] at failed
      exact ih low (Nat.not_lt.mp failed)
  | case3 start stop crossed =>
      exact Nat.le_antisymm low (Nat.le_trans high (Nat.not_lt.mp crossed))

theorem partition_point_eq : partitionPoint passes entries.toArray = entries.countP passes :=
  parted.search_between_eq 0 _ (Nat.zero_le _) List.countP_le_length

end Partitioned

end ExecCounts
