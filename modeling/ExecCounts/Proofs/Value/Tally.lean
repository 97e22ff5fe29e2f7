import ExecCounts.Value
import Mathlib.Data.List.Induction
import Mathlib.Algebra.GroupWithZero.Nat

set_option autoImplicit false

namespace ExecCounts

namespace Count

theorem add_clamp (n : Nat) (count : Count) : add (clamp n) count = clamp (n + count.toNat) := by
  apply UInt64.toNat_inj.mp
  rw [to_nat_add, to_nat_clamp, to_nat_clamp]
  omega

theorem clamp_part (before part after : Nat) :
    clamp (before + (clamp part).toNat + after) = clamp (before + part + after) := by
  apply UInt64.toNat_inj.mp
  rw [to_nat_clamp, to_nat_clamp, to_nat_clamp]
  omega

theorem clamp_self (count : Count) : clamp count.toNat = count := by
  apply UInt64.toNat_inj.mp
  rw [to_nat_clamp]
  exact Nat.min_eq_left (to_nat_le_limit count)

end Count

namespace Site

def weight (site : Site) (value : UInt64) : Nat :=
  ((site.filter (·.value == value)).map fun seen => seen.count.toNat).sum

def sees (site : Site) (value : UInt64) : Bool := site.any (·.value == value)

theorem weight_append (first second : Site) (value : UInt64) :
    weight (first ++ second) value = weight first value + weight second value := by
  rw [weight, List.filter_append, List.map_append, List.sum_append_nat]
  rfl

theorem sees_append (first second : Site) (value : UInt64) :
    sees (first ++ second) value = (sees first value || sees second value) :=
  List.any_append

theorem weight_unseen (site : Site) (value : UInt64) (unseen : sees site value = false) :
    weight site value = 0 := by
  have nothing : site.filter (·.value == value) = [] := by
    rw [List.filter_eq_nil_iff]
    intro seen member equal
    rw [sees, List.any_eq_false] at unseen
    exact unseen seen member equal
  rw [weight, nothing]
  rfl

theorem tally_get (site : Site) (value : UInt64) :
    (tally site)[value]? =
      if sees site value then some (Count.clamp (weight site value)) else none := by
  induction site using List.reverseRecOn with
  | nil => exact Std.ExtTreeMap.getElem?_empty
  | append_singleton site last ih =>
      rw [tally, List.foldl_append, List.foldl_cons, List.foldl_nil,
        Std.ExtTreeMap.getElem?_alter, ← tally, sees_append, weight_append]
      simp only [Std.LawfulEqCmp.compare_eq_iff_eq]
      by_cases same : last.value = value
      · subst same
        have one : weight [last] last.value = last.count.toNat := by simp [weight]
        have seen : sees [last] last.value = true := by simp [sees]
        rw [if_pos rfl, ih, seen, Bool.or_true, if_pos rfl, one]
        cases before : sees site last.value with
        | true => simp only [if_true, Option.getD_some, Count.add_clamp]
        | false =>
            have none_before := weight_unseen site last.value before
            have zero : Count.add 0 last.count = Count.clamp (0 + last.count.toNat) :=
              Count.add_clamp 0 last.count
            simp only [Bool.false_eq_true, if_false, Option.getD_none, none_before, zero]
      · have none_seen : sees [last] value = false := by simp [sees, same]
        have none_added : weight [last] value = 0 := by simp [weight, same]
        rw [if_neg same, ih, none_seen, Bool.or_false, none_added, Nat.add_zero]

theorem normalize_congr (first second : Site)
    (same : ∀ value : UInt64, sees first value = sees second value ∧
      Count.clamp (weight first value) = Count.clamp (weight second value)) :
    normalize first = normalize second := by
  have tallies : tally first = tally second := by
    apply Std.ExtTreeMap.ext_getElem?
    intro value
    rw [tally_get, tally_get, (same value).1, (same value).2]
  rw [normalize, normalize, tallies]

theorem normalize_perm (first second : Site) (same : first.Perm second) :
    normalize first = normalize second := by
  apply normalize_congr
  intro value
  have weights : weight first value = weight second value :=
    ((same.filter _).map _).sum_nat
  exact ⟨same.any_eq, congrArg Count.clamp weights⟩

theorem weight_entries (entries : List (UInt64 × Count))
    (distinct : entries.Pairwise fun a b => a.1 ≠ b.1) (value : UInt64) :
    weight (entries.map fun (value, count) => ⟨value, count⟩) value =
      ((entries.lookup value).map UInt64.toNat).getD 0 := by
  induction entries with
  | nil => rfl
  | cons entry rest ih =>
      obtain ⟨first, others⟩ := List.pairwise_cons.mp distinct
      have split : weight ((entry :: rest).map fun (value, count) => ⟨value, count⟩) value =
          weight [⟨entry.1, entry.2⟩] value +
            weight (rest.map fun (value, count) => ⟨value, count⟩) value :=
        weight_append [⟨entry.1, entry.2⟩] _ value
      rw [split, ih others, List.lookup_cons]
      by_cases same : value = entry.1
      · subst same
        have missing : rest.lookup entry.1 = none := by
          rw [List.lookup_eq_none_iff]
          intro other member
          exact bne_iff_ne.mpr (first other member)
        simp [weight, missing]
      · have differ : (value == entry.1) = false := beq_false_of_ne same
        simp [weight, differ, Ne.symm same]

theorem sees_entries (entries : List (UInt64 × Count)) (value : UInt64) :
    sees (entries.map fun (value, count) => ⟨value, count⟩) value =
      (entries.lookup value).isSome := by
  induction entries with
  | nil => rfl
  | cons entry rest ih =>
      rw [List.map_cons, sees, List.any_cons, ← sees, ih, List.lookup_cons]
      by_cases same : value = entry.1
      · simp [same]
      · have differ : (value == entry.1) = false := beq_false_of_ne same
        simp [differ, Ne.symm same]

theorem lookup_of_mem (entries : List (UInt64 × Count))
    (distinct : entries.Pairwise fun a b => a.1 ≠ b.1) (value : UInt64) (count : Count)
    (member : (value, count) ∈ entries) : entries.lookup value = some count := by
  induction entries with
  | nil => cases member
  | cons entry rest ih =>
      obtain ⟨first, others⟩ := List.pairwise_cons.mp distinct
      rw [List.lookup_cons]
      rcases List.mem_cons.mp member with rfl | later
      · simp
      · have differ : (value == entry.1) = false :=
          beq_false_of_ne fun same => first _ later same.symm
        rw [differ]
        exact ih others later

theorem tally_distinct (counts : Std.ExtTreeMap UInt64 Count) :
    counts.toList.Pairwise fun a b => a.1 ≠ b.1 := by
  refine Std.ExtTreeMap.distinct_keys_toList.imp ?_
  intro a b differ same
  exact differ (Std.LawfulEqCmp.compare_eq_iff_eq.mpr same)

theorem lookup_entries (counts : Std.ExtTreeMap UInt64 Count) (value : UInt64) :
    counts.toList.lookup value = counts[value]? := by
  cases stored : counts[value]? with
  | some count =>
      exact lookup_of_mem counts.toList (tally_distinct counts) value count
        (Std.ExtTreeMap.mem_toList_iff_getElem?_eq_some.mpr stored)
  | none =>
      rw [List.lookup_eq_none_iff]
      rintro ⟨other, count⟩ member
      apply bne_iff_ne.mpr
      rintro rfl
      rw [Std.ExtTreeMap.mem_toList_iff_getElem?_eq_some.mp member] at stored
      cases stored

theorem totals_normalize (site : Site) (value : UInt64) :
    sees (normalize site) value = sees site value ∧
      weight (normalize site) value = (Count.clamp (weight site value)).toNat := by
  rw [normalize, sees_entries, weight_entries _ (tally_distinct _), lookup_entries, tally_get]
  cases found : sees site value with
  | true => exact ⟨rfl, rfl⟩
  | false =>
      rw [weight_unseen site value found]
      exact ⟨rfl, rfl⟩

theorem normalize_part (before part after : Site) :
    normalize (before ++ normalize part ++ after) = normalize (before ++ part ++ after) := by
  apply normalize_congr
  intro value
  obtain ⟨seen, total⟩ := totals_normalize part value
  simp only [sees_append, weight_append, seen, total, Count.clamp_part, and_self]

end Site

end ExecCounts
