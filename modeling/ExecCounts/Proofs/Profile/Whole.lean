import ExecCounts.Proofs.Ascending
import ExecCounts.Proofs.Profile.Regroup
import Mathlib.Data.List.Perm.Basic

set_option autoImplicit false

namespace ExecCounts

instance : Std.Associative Format.latest where
  assoc a b c := by cases a <;> cases b <;> cases c <;> rfl

instance : Std.Commutative Format.latest where
  comm a b := by cases a <;> cases b <;> rfl

instance : Std.LawfulIdentity Format.latest .raw where
  left_id a := by cases a <;> rfl
  right_id a := by cases a <;> rfl

instance : Std.Associative Version.newest where
  assoc a b c := by
    cases a with
    | none => rfl
    | some a =>
        cases b with
        | none => rfl
        | some b =>
            cases c with
            | none => cases a <;> cases b <;> rfl
            | some c => cases a <;> cases b <;> cases c <;> rfl

instance : Std.Commutative Version.newest where
  comm a b := by
    cases a with
    | none => cases b <;> rfl
    | some a =>
        cases b with
        | none => rfl
        | some b => cases a <;> cases b <;> rfl

instance : Std.LawfulIdentity Version.newest none where
  left_id _ := rfl
  right_id a := by cases a <;> rfl

instance : Std.Associative Variant.union where
  assoc a b c := by simp only [Variant.union, Bool.or_assoc]

instance : Std.Commutative Variant.union where
  comm a b := by simp only [Variant.union, Bool.or_comm]

instance : Std.LawfulIdentity Variant.union .plain where
  left_id _ := rfl
  right_id a := by simp only [Variant.union, Variant.plain, Bool.or_false]

section Fold

variable {α : Type} (op : α → α → α) [Std.Associative op]

theorem foldl_flatten (unit : α) [Std.LawfulIdentity op unit] (groups : List (List α)) (start : α) :
    (groups.map fun group => group.foldl op unit).foldl op start = groups.flatten.foldl op start := by
  induction groups generalizing start with
  | nil => rfl
  | cons group rest ih =>
      have fromStart : op start (group.foldl op unit) = group.foldl op start := by
        have joined : group.foldl op (op start unit) = op start (group.foldl op unit) :=
          List.foldl_assoc
        rw [← joined]
        exact congrArg (group.foldl op) (Std.LawfulRightIdentity.right_id start)
      rw [List.map_cons, List.foldl_cons, fromStart, ih, List.flatten_cons, List.foldl_append]

theorem foldl_perm [Std.Commutative op] (first second : List α) (same : first.Perm second)
    (start : α) : first.foldl op start = second.foldl op start := by
  apply same.foldl_eq'
  intro a _ b _ total
  calc op (op total a) b
      = op total (op a b) := Std.Associative.assoc total a b
    _ = op total (op b a) := congrArg (op total) (Std.Commutative.comm a b)
    _ = op (op total b) a := (Std.Associative.assoc total b a).symm

end Fold

namespace Profile

theorem skipped_before_antisymm (a b : Skipped) (below : skippedBefore a b)
    (above : skippedBefore b a) : a.function = b.function ∧ a.reason = b.reason := by
  have order : compareLex (compareOn Skipped.function) (compareOn Skipped.reason) a b = .eq :=
    Std.OrientedCmp.isLE_antisymm below above
  obtain ⟨function, reason⟩ := Ordering.then_eq_eq.mp order
  exact ⟨Std.LawfulEqOrd.eq_of_compare function, Std.LawfulEqOrd.eq_of_compare reason⟩

def allRecords (profiles : List Profile) : List FunctionRecord := profiles.flatMap Profile.records

def allSkipped (profiles : List Profile) : List Skipped := profiles.flatMap Profile.skipped

/-- Entries that differ in the kind of failure differ in the function or in the reason. -/
def KindDetermined (profiles : List Profile) : Prop :=
  ∀ one ∈ allSkipped profiles, ∀ other ∈ allSkipped profiles,
    one.function = other.function → one.reason = other.reason → one.kind = other.kind

structure Whole (profiles : List Profile) (whole : Profile) : Prop where
  records : ∃ sums : RecordMap, Sums sums (allRecords profiles) ∧ whole.records = mergedList sums
  format : whole.format = (profiles.map Profile.format).foldl Format.latest .raw
  version : whole.version = (profiles.map Profile.version).foldl Version.newest none
  variant : whole.variant = (profiles.map Profile.variant).foldl Variant.union .plain
  idsAscend : whole.binaryIds.Pairwise fun a b => compare a b = .lt
  ids : ∀ id, id ∈ whole.binaryIds ↔ ∃ profile ∈ profiles, id ∈ profile.binaryIds
  skippedSorted : whole.skipped.Pairwise fun a b => skippedBefore a b
  skipped : whole.skipped.Perm (allSkipped profiles)

theorem skipped_sorted (skipped : List Skipped) :
    (skipped.mergeSort skippedBefore).Pairwise fun a b => skippedBefore a b := by
  have order : ∀ a b : Skipped, skippedBefore a b =
      (compareLex (compareOn Skipped.function) (compareOn Skipped.reason) a b).isLE := fun _ _ => rfl
  apply List.pairwise_mergeSort
  · intro a b c first second
    rw [order] at first second ⊢
    exact Std.TransCmp.isLE_trans first second
  · intro a b
    have swapped : compareLex (compareOn Skipped.function) (compareOn Skipped.reason) b a =
        (compareLex (compareOn Skipped.function) (compareOn Skipped.reason) a b).swap :=
      Std.OrientedCmp.eq_swap
    rw [order, order, swapped]
    cases compareLex (compareOn Skipped.function) (compareOn Skipped.reason) a b <;> rfl

theorem whole_unique (profiles : List Profile) (first second : Profile)
    (determined : KindDetermined profiles) (firstHolds : Whole profiles first)
    (secondHolds : Whole profiles second) : first = second := by
  have records : first.records = second.records := by
    obtain ⟨sums, sumsHold, listed⟩ := firstHolds.records
    obtain ⟨others, othersHold, otherListed⟩ := secondHolds.records
    rw [listed, otherListed, sums_unique sums others _ sumsHold othersHold]
  have binaryIds : first.binaryIds = second.binaryIds := by
    apply ascending_unique _ _ firstHolds.idsAscend secondHolds.idsAscend
    intro id
    rw [firstHolds.ids, secondHolds.ids]
  have skipped : first.skipped = second.skipped := by
    have same := firstHolds.skipped.trans secondHolds.skipped.symm
    apply same.eq_of_pairwise _ firstHolds.skippedSorted secondHolds.skippedSorted
    intro a b aMember bMember below above
    obtain ⟨function, reason⟩ := skipped_before_antisymm a b below above
    -- Two entries that the order does not tell apart fail in the same way.
    have kind := determined a (firstHolds.skipped.mem_iff.mp aMember) b
      (secondHolds.skipped.mem_iff.mp bMember) function reason
    cases a
    cases b
    cases function
    cases reason
    cases kind
    rfl
  cases first
  cases second
  cases records
  cases binaryIds
  cases skipped
  cases firstHolds.format.trans secondHolds.format.symm
  cases firstHolds.version.trans secondHolds.version.symm
  cases firstHolds.variant.trans secondHolds.variant.symm
  rfl

structure Alike (first second : List Profile) : Prop where
  agreeing : Agreeing (allRecords first) ↔ Agreeing (allRecords second)
  sums : ∀ sums : RecordMap, Sums sums (allRecords first) ↔ Sums sums (allRecords second)
  format : (first.map Profile.format).foldl Format.latest .raw =
    (second.map Profile.format).foldl Format.latest .raw
  version : (first.map Profile.version).foldl Version.newest none =
    (second.map Profile.version).foldl Version.newest none
  variant : (first.map Profile.variant).foldl Variant.union .plain =
    (second.map Profile.variant).foldl Variant.union .plain
  ids : ∀ id, (∃ profile ∈ first, id ∈ profile.binaryIds) ↔ ∃ profile ∈ second, id ∈ profile.binaryIds
  skipped : (allSkipped first).Perm (allSkipped second)

theorem Alike.symm {first second : List Profile} (alike : Alike first second) :
    Alike second first where
  agreeing := alike.agreeing.symm
  sums sums := (alike.sums sums).symm
  format := alike.format.symm
  version := alike.version.symm
  variant := alike.variant.symm
  ids id := (alike.ids id).symm
  skipped := alike.skipped.symm

theorem Alike.whole {first second : List Profile} (alike : Alike first second) (whole : Profile)
    (holds : Whole first whole) : Whole second whole where
  records := by simpa only [alike.sums] using holds.records
  format := holds.format.trans alike.format
  version := holds.version.trans alike.version
  variant := holds.variant.trans alike.variant
  idsAscend := holds.idsAscend
  ids id := (holds.ids id).trans (alike.ids id)
  skippedSorted := holds.skippedSorted
  skipped := holds.skipped.trans alike.skipped

theorem Alike.kind_determined {first second : List Profile} (alike : Alike first second)
    (determined : KindDetermined second) : KindDetermined first := by
  simpa only [KindDetermined, alike.skipped.mem_iff] using determined

theorem alike_perm (first second : List Profile) (same : first.Perm second) :
    Alike first second where
  agreeing := agreeing_perm _ _ (same.flatMap_right _)
  sums sums := sums_perm sums _ _ (same.flatMap_right _)
  format := foldl_perm _ _ _ (same.map _) _
  version := foldl_perm _ _ _ (same.map _) _
  variant := foldl_perm _ _ _ (same.map _) _
  ids id := by simp only [same.mem_iff]
  skipped := same.flatMap_right _

end Profile

end ExecCounts
