import ExecCounts.Coverage.Span
import Mathlib.Data.List.Perm.Basic
import Mathlib.Algebra.GroupWithZero.Nat

set_option autoImplicit false

namespace ExecCounts

namespace LineFold

def combined (fold : LineFold) (counts : List Count) : Count :=
  match fold with
  | .max => counts.foldr Max.max 0
  | .sum => Count.clamp (counts.map UInt64.toNat).sum
  | .presence => if counts.any (· != 0) then 1 else 0

theorem max_to_nat (a b : Count) : (Max.max a b).toNat = Max.max a.toNat b.toNat := by
  change (if a ≤ b then b else a).toNat = _
  by_cases below : a ≤ b
  · rw [if_pos below, Nat.max_eq_right (UInt64.le_iff_toNat_le.mp below)]
  · have above : b.toNat ≤ a.toNat :=
      Nat.le_of_not_le fun order => below (UInt64.le_iff_toNat_le.mpr order)
    rw [if_neg below, Nat.max_eq_left above]

theorem greatest_to_nat (counts : List Count) :
    (counts.foldr Max.max 0).toNat = (counts.map UInt64.toNat).foldr Max.max 0 := by
  induction counts with
  | nil => rfl
  | cons head rest ih => rw [List.foldr_cons, max_to_nat, ih, List.map_cons, List.foldr_cons]

theorem le_greatest (counts : List Count) (count : Count) (member : count ∈ counts) :
    count.toNat ≤ (counts.foldr Max.max 0).toNat := by
  induction counts with
  | nil => cases member
  | cons head rest ih =>
      rw [List.foldr_cons, max_to_nat]
      cases member with
      | head => omega
      | tail _ member =>
          have below := ih member
          omega

theorem greatest_mem (counts : List Count) :
    counts.foldr Max.max 0 = 0 ∨ counts.foldr Max.max 0 ∈ counts := by
  induction counts with
  | nil => exact .inl rfl
  | cons head rest ih =>
      rw [List.foldr_cons]
      by_cases below : head ≤ rest.foldr Max.max 0
      · have greatest : Max.max head (rest.foldr Max.max 0) = rest.foldr Max.max 0 := if_pos below
        rw [greatest]
        exact ih.imp id (List.mem_cons_of_mem _)
      · have greatest : Max.max head (rest.foldr Max.max 0) = head := if_neg below
        rw [greatest]
        exact .inr List.mem_cons_self

theorem greatest_eq (counts : List Count) (greatest : Count) (member : greatest ∈ counts)
    (bounds : ∀ count ∈ counts, count.toNat ≤ greatest.toNat) :
    counts.foldr Max.max 0 = greatest := by
  have above := le_greatest counts greatest member
  apply UInt64.toNat_inj.mp
  obtain zero | found := greatest_mem counts
  · rw [zero] at above ⊢
    exact Nat.le_antisymm (Nat.zero_le _) above
  · exact Nat.le_antisymm (bounds _ found) above

theorem combined_eq_resolve (fold : LineFold) (counts : List Count) (greatest : Count)
    (member : greatest ∈ counts) (bounds : ∀ count ∈ counts, count.toNat ≤ greatest.toNat) :
    fold.resolve greatest (counts.map UInt64.toNat).sum = fold.combined counts := by
  cases fold with
  | max => exact (greatest_eq counts greatest member bounds).symm
  | sum => rfl
  | presence =>
      by_cases zero : greatest = 0
      · have none_positive : ¬ counts.any (· != 0) = true := by
          intro some_positive
          obtain ⟨count, found, positive⟩ := List.any_eq_true.mp some_positive
          have bound := bounds count found
          rw [zero] at bound
          exact (bne_iff_ne.mp positive) (UInt64.toNat_inj.mp (Nat.le_zero.mp bound))
        rw [combined, if_neg none_positive, zero]
        rfl
      · have some_positive : counts.any (· != 0) = true :=
          List.any_eq_true.mpr ⟨greatest, member, bne_iff_ne.mpr zero⟩
        rw [combined, if_pos some_positive, resolve]
        have positive : 0 < greatest.toNat :=
          Nat.pos_of_ne_zero fun none => zero (UInt64.toNat_inj.mp none)
        have above : (1 : UInt64) ≤ greatest := UInt64.le_iff_toNat_le.mpr positive
        change (if greatest ≤ 1 then greatest else 1) = 1
        split
        · rename_i below
          exact UInt64.le_antisymm below above
        · rfl

theorem combined_perm (fold : LineFold) (counts others : List Count) (same : counts.Perm others) :
    fold.combined counts = fold.combined others := by
  cases fold with
  | max =>
      apply UInt64.toNat_inj.mp
      rw [combined, combined, greatest_to_nat, greatest_to_nat]
      exact (same.map UInt64.toNat).foldr_eq 0
  | sum => rw [combined, combined, (same.map UInt64.toNat).sum_nat]
  | presence => rw [combined, combined, same.any_eq]

end LineFold

namespace ActiveCounts

structure Holds (active : ActiveCounts) (counts : List Count) : Prop where
  each : ∀ count : Count, active.counts[count]? =
    if counts.count count = 0 then none else some (counts.count count)
  total : active.sum = (counts.map UInt64.toNat).sum

theorem holds_empty : Holds empty [] where
  each := fun _ => Std.ExtTreeMap.getElem?_empty
  total := rfl

theorem holds_insert (active : ActiveCounts) (counts : List Count) (count : Count)
    (holds : Holds active counts) : Holds (active.insert count) (count :: counts) where
  each := by
    intro other
    simp only [insert, Std.ExtTreeMap.getElem?_alter, Std.LawfulEqCmp.compare_eq_iff_eq,
      holds.each, List.count_cons]
    by_cases same : count = other
    · subst same
      by_cases new : counts.count count = 0 <;> simp [new]
    · simp [same]
  total := by
    rw [insert, holds.total, List.map_cons, List.sum_cons, Nat.add_comm]

theorem holds_remove (active : ActiveCounts) (counts : List Count) (count : Count)
    (holds : Holds active counts) (isOpen : count ∈ counts) :
    Holds (active.remove count) (counts.erase count) := by
  obtain ⟨others, several⟩ := Nat.exists_eq_succ_of_ne_zero
    (Nat.ne_of_gt (List.count_pos_iff.mpr isOpen))
  have found := holds.each count
  rw [several, if_neg (Nat.succ_ne_zero others)] at found
  have total : active.sum - count.toNat = ((counts.erase count).map UInt64.toNat).sum := by
    rw [holds.total, ((List.perm_cons_erase isOpen).map UInt64.toNat).sum_nat, List.map_cons,
      List.sum_cons, Nat.add_sub_cancel_left]
  rw [remove, found]
  -- The entry goes with the last region of this count, and is lowered before.
  cases others with
  | zero =>
      refine ⟨?_, total⟩
      intro other
      simp only [Std.ExtTreeMap.getElem?_erase, Std.LawfulEqCmp.compare_eq_iff_eq, holds.each]
      by_cases same : count = other
      · subst same
        simp [several]
      · simp [same, List.count_erase_of_ne (Ne.symm same)]
  | succ others =>
      refine ⟨?_, total⟩
      intro other
      simp only [Std.ExtTreeMap.getElem?_insert, Std.LawfulEqCmp.compare_eq_iff_eq, holds.each]
      by_cases same : count = other
      · subst same
        simp [several]
      · simp [same, List.count_erase_of_ne (Ne.symm same)]

theorem folded_eq (active : ActiveCounts) (counts : List Count) (fold : LineFold)
    (holds : Holds active counts) :
    active.folded fold = if counts.isEmpty then none else some (fold.combined counts) := by
  have mem_iff : ∀ count : Count, count ∈ active.counts ↔ count ∈ counts := by
    intro count
    rw [Std.ExtTreeMap.mem_iff_isSome_getElem?, holds.each, ← List.count_pos_iff]
    by_cases none : counts.count count = 0
    · simp [none]
    · simp [none, Nat.pos_of_ne_zero none]
  rw [folded]
  cases greatest : active.counts.maxKey? with
  | none =>
      have nothing := Std.ExtTreeMap.maxKey?_eq_none_iff.mp greatest
      have noCounts : counts = [] := by
        apply List.eq_nil_iff_forall_not_mem.mpr
        intro count member
        have stored := (mem_iff count).mpr member
        rw [nothing] at stored
        exact Std.ExtTreeMap.not_mem_empty stored
      rw [noCounts]
      rfl
  | some count =>
      obtain ⟨stored, bounds⟩ := Std.ExtTreeMap.maxKey?_eq_some_iff_mem_and_forall.mp greatest
      have member := (mem_iff count).mp stored
      have some_count : ¬ counts.isEmpty = true := by
        intro none
        rw [List.isEmpty_iff.mp none] at member
        cases member
      rw [if_neg some_count, Option.map_some, holds.total]
      congr 1
      apply LineFold.combined_eq_resolve fold counts count member
      intro other otherMember
      have order := bounds other ((mem_iff other).mpr otherMember)
      exact UInt64.le_iff_toNat_le.mp ((Std.LawfulOrderOrd.isLE_compare other count).mp order)

end ActiveCounts

end ExecCounts
