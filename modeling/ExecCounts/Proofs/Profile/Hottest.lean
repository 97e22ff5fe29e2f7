import ExecCounts.Profile.Summary
import Mathlib

set_option autoImplicit false

namespace ExecCounts

def Profile.counters (profile : Profile) : List Count :=
  profile.records.flatMap FunctionRecord.counters

namespace Summary

def sumOf (counters : List Count) : Nat := (counters.map UInt64.toNat).sum

def atLeast (counters : List Count) (value : Count) : List Count :=
  counters.filter fun count => value ≤ count

def wantedOf (counters : List Count) (cutoff : Nat) : Nat :=
  min (2 ^ 64 - 1) (sumOf counters) * cutoff / 1000000

/-- The greatest of the counters such that it and those above it make up a wanted sum. -/
inductive Threshold (counters : List Count) (wanted : Nat) (least : Count) : Prop where
  | reached (listed : least ∈ counters) (enough : wanted ≤ sumOf (atLeast counters least))
      (greatest : ∀ value ∈ counters, wanted ≤ sumOf (atLeast counters value) → value ≤ least)
  -- The smallest counter, if all of them do not make up as much.
  | exhausted (listed : least ∈ counters)
      (short : ∀ value ∈ counters, sumOf (atLeast counters value) < wanted)
      (smallest : ∀ value ∈ counters, least ≤ value)

theorem sum_of_append (first second : List Count) :
    sumOf (first ++ second) = sumOf first + sumOf second := by
  rw [sumOf, List.map_append, List.sum_append_nat]
  rfl

theorem sum_of_perm (first second : List Count) (same : first.Perm second) :
    sumOf first = sumOf second :=
  (same.map UInt64.toNat).sum_nat

theorem sum_of_sublist (first second : List Count) (part : first.Sublist second) :
    sumOf first ≤ sumOf second :=
  (part.map UInt64.toNat).sum_le_sum fun _ _ => Nat.zero_le _

section Counted

structure Counts (summary : Summary) (counters : List Count) : Prop where
  total : summary.totalCount.toNat = min (2 ^ 64 - 1) (sumOf counters)
  each : ∀ count : Count, summary.frequencies[count]? =
    if counters.count count = 0 then none else some (counters.count count)

theorem counts_empty : Counts empty [] where
  total := rfl
  each := fun _ => Std.ExtTreeMap.getElem?_empty

variable {summary : Summary} {counters : List Count}

theorem counts_add (counts : Counts summary counters) (count : Count) :
    Counts (summary.addCount count) (counters ++ [count]) where
  total := by
    have limit : Count.limit = 2 ^ 64 - 1 := rfl
    have one : sumOf [count] = count.toNat := Nat.add_zero _
    rw [addCount, Count.to_nat_add, counts.total, sum_of_append, one, limit]
    omega
  each := by
    intro other
    simp only [addCount, Std.ExtTreeMap.getElem?_alter, Std.LawfulEqCmp.compare_eq_iff_eq,
      counts.each, List.count_append, List.count_singleton]
    by_cases same : count = other
    · subst same
      by_cases new : counters.count count = 0 <;> simp [new]
    · simp [same]

theorem counts_blocks (counts : Counts summary counters) (blocks : List Count) :
    Counts (blocks.foldl addBlockCount summary) (counters ++ blocks) := by
  induction blocks generalizing summary counters with
  | nil => rwa [List.append_nil]
  | cons count rest ih =>
      have added : Counts (summary.addBlockCount count) (counters ++ [count]) :=
        ⟨(counts_add counts count).total, (counts_add counts count).each⟩
      rw [List.foldl_cons, List.append_cons]
      exact ih added

theorem counts_record (counts : Counts summary counters) (record : FunctionRecord) :
    Counts (summary.addRecord record) (counters ++ record.counters) := by
  rw [addRecord]
  cases record.counters with
  | nil => rwa [List.append_nil]
  | cons entry blocks =>
      have added : Counts (summary.addFunctionCount entry) (counters ++ [entry]) :=
        ⟨(counts_add counts entry).total, (counts_add counts entry).each⟩
      rw [List.append_cons]
      exact counts_blocks added blocks

theorem counts_records (counts : Counts summary counters) (records : List FunctionRecord) :
    Counts (records.foldl addRecord summary)
      (counters ++ records.flatMap FunctionRecord.counters) := by
  induction records generalizing summary counters with
  | nil => rwa [List.flatMap_nil, List.append_nil]
  | cons record rest ih =>
      rw [List.foldl_cons, List.flatMap_cons, ← List.append_assoc]
      exact ih (counts_record counts record)

theorem counts_profile (profile : Profile) : Counts profile.summary profile.counters :=
  counts_records counts_empty profile.records

theorem detailed_of_counts {other : Summary} {others : List Count} (counts : Counts summary counters)
    (otherCounts : Counts other others) (same : counters.Perm others) (cutoffs : List Nat) :
    summary.detailed cutoffs = other.detailed cutoffs := by
  have frequencies : summary.frequencies = other.frequencies := by
    apply Std.ExtTreeMap.ext_getElem?
    intro count
    rw [counts.each, otherCounts.each, same.count_eq]
  rw [detailed, detailed, counts.total, otherCounts.total, frequencies, sum_of_perm _ _ same]

end Counted

section Expanded

def expand (pairs : List (Count × Nat)) : List Count :=
  pairs.flatMap fun pair => List.replicate pair.2 pair.1

structure Tallies (pairs : List (Count × Nat)) (counters : List Count) : Prop where
  descending : pairs.Pairwise fun a b => b.1 < a.1
  positive : ∀ pair ∈ pairs, 0 < pair.2
  perm : (expand pairs).Perm counters

theorem expand_append (first second : List (Count × Nat)) :
    expand (first ++ second) = expand first ++ expand second :=
  List.flatMap_append

theorem expand_cons (pair : Count × Nat) (rest : List (Count × Nat)) :
    expand (pair :: rest) = List.replicate pair.2 pair.1 ++ expand rest :=
  List.flatMap_cons

theorem sum_of_expand_cons (pair : Count × Nat) (rest : List (Count × Nat)) :
    sumOf (expand (pair :: rest)) = pair.1.toNat * pair.2 + sumOf (expand rest) := by
  rw [expand_cons, sum_of_append, sumOf, List.map_replicate, List.sum_replicate_nat, Nat.mul_comm]

theorem mem_expand (pairs : List (Count × Nat)) (value : Count) (member : value ∈ expand pairs) :
    ∃ pair ∈ pairs, pair.1 = value := by
  obtain ⟨pair, listed, own⟩ := List.mem_flatMap.mp member
  exact ⟨pair, listed, (List.eq_of_mem_replicate own).symm⟩

theorem at_least_expand_below (pairs : List (Count × Nat)) (value : Count)
    (below : ∀ pair ∈ pairs, pair.1 < value) : atLeast (expand pairs) value = [] := by
  rw [atLeast, List.filter_eq_nil_iff]
  intro count member
  obtain ⟨other, listed, rfl⟩ := mem_expand _ count member
  rw [decide_eq_true_eq, UInt64.not_le]
  exact below other listed

theorem at_least_append (first second : List Count) (value : Count) :
    atLeast (first ++ second) value = atLeast first value ++ atLeast second value :=
  List.filter_append ..

theorem count_expand_other (pairs : List (Count × Nat)) (value : Count)
    (other : ∀ pair ∈ pairs, pair.1 ≠ value) : (expand pairs).count value = 0 := by
  rw [List.count_eq_zero]
  intro member
  obtain ⟨pair, listed, same⟩ := mem_expand pairs value member
  exact other pair listed same

theorem count_expand (pairs : List (Count × Nat)) (descending : pairs.Pairwise fun a b => b.1 < a.1)
    (pair : Count × Nat) (member : pair ∈ pairs) : (expand pairs).count pair.1 = pair.2 := by
  induction pairs with
  | nil => cases member
  | cons first rest ih =>
      obtain ⟨below, others⟩ := List.pairwise_cons.mp descending
      rw [expand_cons, List.count_append, List.count_replicate]
      obtain rfl | later := List.mem_cons.mp member
      · rw [if_pos (beq_self_eq_true _), count_expand_other rest pair.1 fun other listed same =>
          absurd (below other listed) (same ▸ UInt64.lt_irrefl _)]
        exact Nat.add_zero _
      · have differ : first.1 ≠ pair.1 := fun same =>
          absurd (below pair later) (same ▸ UInt64.lt_irrefl _)
        rw [if_neg (by simpa using differ), ih others later, Nat.zero_add]

theorem tallies_counts {summary : Summary} {counters : List Count}
    (counts : Counts summary counters) : Tallies summary.frequencies.toList.reverse counters := by
  have stored (value : Count) (times : Nat) :
      (value, times) ∈ summary.frequencies.toList.reverse ↔
        times = counters.count value ∧ times ≠ 0 := by
    rw [List.mem_reverse, Std.ExtTreeMap.mem_toList_iff_getElem?_eq_some, counts.each]
    by_cases none : counters.count value = 0
    · rw [if_pos none]
      simp only [none, reduceCtorEq, false_iff, not_and, not_not, imp_self]
    · rw [if_neg none, Option.some.injEq, eq_comm]
      exact ⟨fun same => ⟨same, same ▸ none⟩, fun both => both.1⟩
  have descending : summary.frequencies.toList.reverse.Pairwise fun a b => b.1 < a.1 := by
    rw [List.pairwise_reverse]
    exact Std.ExtTreeMap.ordered_keys_toList.imp fun order => Std.compare_eq_lt.mp order
  refine ⟨descending, ?_, ?_⟩
  · rintro ⟨value, times⟩ listed
    exact Nat.pos_of_ne_zero ((stored value times).mp listed).2
  · rw [List.perm_iff_count]
    intro value
    by_cases none : counters.count value = 0
    · rw [none]
      apply count_expand_other
      rintro ⟨other, times⟩ listed rfl
      obtain ⟨same, positive⟩ := (stored other times).mp listed
      exact positive (same.trans none)
    · exact count_expand _ descending (value, counters.count value)
        ((stored value _).mpr ⟨rfl, none⟩)

end Expanded

section Reached

def Hottest.onward (hottest : Hottest) (wanted : Nat) : Hottest :=
  reach wanted hottest.rest hottest.sum hottest.seen hottest.least

theorem onward_onward (hottest : Hottest) (first second : Nat) (order : first ≤ second) :
    (hottest.onward first).onward second = hottest.onward second := by
  obtain ⟨pairs, sum, seen, least⟩ := hottest
  dsimp only [Hottest.onward]
  induction pairs generalizing sum seen least with
  | nil => rfl
  | cons pair rest ih =>
      obtain ⟨count, times⟩ := pair
      rw [Hottest.reach]
      by_cases short : sum < first
      · rw [if_pos short, ih, Hottest.reach, if_pos (Nat.lt_of_lt_of_le short order)]
      · rw [if_neg short]

theorem entries_eq (total : Nat) (hottest : Hottest) (cutoffs : List Nat)
    (sorted : cutoffs.Pairwise (· ≤ ·)) :
    entries total hottest cutoffs = cutoffs.map fun cutoff =>
      let reached := hottest.onward (total * cutoff / cutoffScale)
      ⟨cutoff, reached.least, reached.seen⟩ := by
  induction cutoffs generalizing hottest with
  | nil => rfl
  | cons cutoff rest ih =>
      obtain ⟨first, others⟩ := List.pairwise_cons.mp sorted
      have later := ih (hottest.onward (total * cutoff / cutoffScale)) others
      rw [entries, List.map_cons]
      refine congrArg _ (later.trans (List.map_congr_left fun next listed => ?_))
      -- The wanted sums ascend, so that stopping on the way makes no difference.
      have order := Nat.div_le_div_right (c := cutoffScale)
        (Nat.mul_le_mul_left total (first next listed))
      dsimp only
      rw [onward_onward hottest _ _ order]

/-- What is taken makes up what is wanted, unless nothing is left, and would not without its last
value. -/
theorem reach_taken (wanted : Nat) (pairs : List (Count × Nat)) (sum seen : Nat) (least : Count) :
    ∃ taken rest, pairs = taken ++ rest ∧
      Hottest.reach wanted pairs sum seen least = ⟨rest, sum + sumOf (expand taken),
        seen + (expand taken).length, taken.foldl (fun _ pair => pair.1) least⟩ ∧
      (∀ front pair back, taken = front ++ pair :: back → sum + sumOf (expand front) < wanted) ∧
      (rest = [] ∨ wanted ≤ sum + sumOf (expand taken)) := by
  induction pairs generalizing sum seen least with
  | nil => exact ⟨[], [], rfl, rfl, by simp, .inl rfl⟩
  | cons pair pairs ih =>
      obtain ⟨count, times⟩ := pair
      rw [Hottest.reach]
      by_cases short : sum < wanted
      · obtain ⟨taken, rest, rfl, reached, before, enough⟩ :=
          ih (sum + count.toNat * times) (seen + times) count
        refine ⟨(count, times) :: taken, rest, rfl, ?_, ?_, ?_⟩
        · rw [if_pos short, reached, sum_of_expand_cons, expand_cons, List.length_append,
            List.length_replicate, Nat.add_assoc, Nat.add_assoc, List.foldl_cons]
        · intro front pair back shape
          cases front with
          | nil => exact short
          | cons first front =>
              rw [List.cons_append, List.cons.injEq] at shape
              obtain ⟨rfl, shape⟩ := shape
              have earlier := before front pair back shape
              rw [sum_of_expand_cons, ← Nat.add_assoc]
              exact earlier
        · rw [sum_of_expand_cons, ← Nat.add_assoc]
          exact enough
      · refine ⟨[], (count, times) :: pairs, rfl, ?_, by simp, .inr (Nat.le_of_not_lt short)⟩
        rw [if_neg short]
        rfl

end Reached

section Cutoff

variable {front back : List (Count × Nat)} {pair : Count × Nat}
  (descending : (front ++ pair :: back).Pairwise fun a b => b.1 < a.1)

include descending

theorem le_of_mem_taken (value : Count) (member : value ∈ expand (front ++ [pair])) :
    pair.1 ≤ value := by
  obtain ⟨other, listed, rfl⟩ := mem_expand _ value member
  obtain earlier | own := List.mem_append.mp listed
  · exact UInt64.le_of_lt
      ((List.pairwise_append.mp descending).2.2 other earlier pair List.mem_cons_self)
  · rw [List.mem_singleton.mp own]
    exact UInt64.le_refl _

theorem at_least_expand :
    atLeast (expand (front ++ pair :: back)) pair.1 = expand (front ++ [pair]) := by
  obtain ⟨-, fromPair, -⟩ := List.pairwise_append.mp descending
  have taken : atLeast (expand (front ++ [pair])) pair.1 = expand (front ++ [pair]) := by
    rw [atLeast, List.filter_eq_self]
    exact fun count member => decide_eq_true (le_of_mem_taken descending count member)
  have left : atLeast (expand back) pair.1 = [] :=
    at_least_expand_below back pair.1 (List.pairwise_cons.mp fromPair).1
  rw [List.append_cons, expand_append, at_least_append, taken, left, List.append_nil]

theorem sum_above (value : Count) (above : pair.1 < value) :
    sumOf (atLeast (expand (front ++ pair :: back)) value) ≤ sumOf (expand front) := by
  obtain ⟨-, fromPair, -⟩ := List.pairwise_append.mp descending
  have left : atLeast (expand (pair :: back)) value = [] := by
    apply at_least_expand_below
    intro other listed
    obtain rfl | later := List.mem_cons.mp listed
    · exact above
    · exact UInt64.lt_trans ((List.pairwise_cons.mp fromPair).1 other later) above
  rw [expand_append, at_least_append, left, List.append_nil]
  exact sum_of_sublist _ _ List.filter_sublist

end Cutoff

structure Accurate (counters : List Count) (entry : SummaryEntry) : Prop where
  nothing : wantedOf counters entry.cutoff = 0 → entry.minCount = 0 ∧ entry.numCounts = 0
  something : 0 < wantedOf counters entry.cutoff →
    Threshold counters (wantedOf counters entry.cutoff) entry.minCount ∧
      entry.numCounts = (atLeast counters entry.minCount).length

section Tallied

variable {pairs : List (Count × Nat)} {counters : List Count} (tallies : Tallies pairs counters)

include tallies

theorem at_least_perm (value : Count) :
    (atLeast (expand pairs) value).Perm (atLeast counters value) :=
  tallies.perm.filter _

theorem threshold_of_taken {front rest : List (Count × Nat)} {pair : Count × Nat} {wanted : Nat}
    (shape : pairs = front ++ pair :: rest) (before : sumOf (expand front) < wanted)
    (enough : rest = [] ∨ wanted ≤ sumOf (expand (front ++ [pair]))) :
    Threshold counters wanted pair.1 := by
  have descending := shape ▸ tallies.descending
  have sums (value : Count) : sumOf (atLeast counters value) =
      sumOf (atLeast (expand (front ++ pair :: rest)) value) := by
    rw [← shape, sum_of_perm _ _ (at_least_perm tallies value)]
  have listed : pair.1 ∈ counters := by
    rw [← tallies.perm.mem_iff, ← List.count_pos_iff, shape, count_expand _ descending pair (by simp)]
    exact tallies.positive pair (shape ▸ by simp)
  by_cases reached : wanted ≤ sumOf (expand (front ++ [pair]))
  · refine .reached listed ?_ fun value _ sufficient => ?_
    · rw [sums, at_least_expand descending]
      exact reached
    · rw [← UInt64.not_lt]
      intro above
      have bound := sum_above descending value above
      rw [sums] at sufficient
      omega
  · -- Nothing is left: the last value taken is the smallest, and even all counters are not enough.
    obtain rfl := enough.resolve_right reached
    refine .exhausted listed (fun value _ => ?_) fun value member => ?_
    · have part := sum_of_sublist _ _ (List.filter_sublist (l := expand (front ++ [pair]))
        (p := fun count => value ≤ count))
      rw [sums, atLeast]
      omega
    · rw [← tallies.perm.mem_iff, shape] at member
      exact le_of_mem_taken descending value member

theorem onward_accurate (cutoff : Nat) :
    let reached := Hottest.onward ⟨pairs, 0, 0, 0⟩ (wantedOf counters cutoff)
    Accurate counters ⟨cutoff, reached.least, reached.seen⟩ := by
  obtain ⟨taken, rest, shape, reached, before, enough⟩ :=
    reach_taken (wantedOf counters cutoff) pairs 0 0 0
  dsimp only [Hottest.onward]
  rw [reached]
  simp only [Nat.zero_add] at before enough ⊢
  -- Nothing is taken only where nothing is wanted.
  obtain rfl | ⟨front, pair, rfl⟩ := taken.eq_nil_or_concat'
  · refine ⟨fun _ => ⟨rfl, rfl⟩, fun positive => ?_⟩
    exfalso
    obtain rfl | zero := enough
    · have empty := tallies.perm
      rw [shape] at empty
      rw [List.nil_perm.mp empty] at positive
      exact absurd positive (by simp [wantedOf, sumOf])
    · exact absurd (Nat.lt_of_lt_of_le positive zero) (Nat.lt_irrefl _)
  · have short := before front pair [] rfl
    rw [List.append_assoc, List.singleton_append] at shape
    refine ⟨fun zero => ?_, fun _ => ?_⟩
    · change wantedOf counters cutoff = 0 at zero
      omega
    · rw [List.foldl_append, List.foldl_cons, List.foldl_nil]
      refine ⟨threshold_of_taken tallies shape short enough, ?_⟩
      rw [← (at_least_perm tallies pair.1).length_eq, shape,
        at_least_expand (shape ▸ tallies.descending)]

end Tallied

theorem detailed_by_cutoff (profile : Profile) (cutoffs : List Nat) :
    ((profile.summary.detailed cutoffs).map SummaryEntry.cutoff).Perm cutoffs ∧
    ((profile.summary.detailed cutoffs).map SummaryEntry.cutoff).Pairwise (· ≤ ·) ∧
    (∀ entry ∈ profile.summary.detailed cutoffs, Accurate profile.counters entry) ∧
    ∀ other : Profile, other.records.Perm profile.records →
      other.summary.detailed cutoffs = profile.summary.detailed cutoffs := by
  have counts := counts_profile profile
  have sorted : (cutoffs.mergeSort fun a b => a ≤ b).Pairwise (· ≤ ·) :=
    List.pairwise_mergeSort' (· ≤ ·) cutoffs
  have each := entries_eq profile.summary.totalCount.toNat
    ⟨profile.summary.frequencies.toList.reverse, 0, 0, 0⟩ _ sorted
  rw [counts.total] at each
  have listed : (profile.summary.detailed cutoffs).map SummaryEntry.cutoff =
      cutoffs.mergeSort fun a b => a ≤ b := by
    rw [detailed, counts.total, each, List.map_map]
    exact List.map_id _
  refine ⟨?_, ?_, ?_, ?_⟩
  · rw [listed]
    exact List.mergeSort_perm _ _
  · rw [listed]
    exact sorted
  · intro entry member
    rw [detailed, counts.total, each] at member
    obtain ⟨cutoff, -, rfl⟩ := List.mem_map.mp member
    exact onward_accurate (tallies_counts counts) cutoff
  · intro other same
    exact detailed_of_counts (counts_profile other) counts (same.flatMap_right _) cutoffs

def uneven : Profile :=
  { Profile.empty .text with
    records := [⟨"f", 1, [50, 30, 10, 10], none⟩, ⟨"g", 2, [], none⟩, ⟨"h", 3, [10, 0], none⟩] }

def unevenReversed : Profile := { uneven with records := uneven.records.reverse }

theorem detailed_by_cutoff_uneven :
    uneven.summary.detailed [900000, 500000, 0, 900000, 2000000] =
      [⟨0, 0, 0⟩, ⟨500000, 30, 2⟩, ⟨900000, 10, 5⟩, ⟨900000, 10, 5⟩, ⟨2000000, 0, 6⟩] ∧
    Accurate uneven.counters ⟨900000, 10, 5⟩ ∧ Accurate uneven.counters ⟨2000000, 0, 6⟩ ∧
    unevenReversed.summary.detailed [900000, 500000, 0, 900000, 2000000] =
      uneven.summary.detailed [900000, 500000, 0, 900000, 2000000] := by
  have entries : uneven.summary.detailed [900000, 500000, 0, 900000, 2000000] =
      [⟨0, 0, 0⟩, ⟨500000, 30, 2⟩, ⟨900000, 10, 5⟩, ⟨900000, 10, 5⟩, ⟨2000000, 0, 6⟩] := by
    cbv
  obtain ⟨-, -, accurate, order⟩ :=
    detailed_by_cutoff uneven [900000, 500000, 0, 900000, 2000000]
  rw [entries] at accurate
  exact ⟨entries, accurate _ (by decide), accurate _ (by decide),
    order unevenReversed (List.reverse_perm _)⟩

end Summary

end ExecCounts
