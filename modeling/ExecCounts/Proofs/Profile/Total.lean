import ExecCounts.Profile.Merge
import ExecCounts.Proofs.Value.Tally
import Mathlib.Data.List.Perm.Basic
import Mathlib.Algebra.GroupWithZero.Nat

set_option autoImplicit false

namespace ExecCounts

namespace FunctionRecord

def siteAt (record : FunctionRecord) (kind : ValueKind) (index : Nat) : Site :=
  match record.values with
  | some values => ((values.sites kind)[index]?).getD []
  | none => []

def greatest (numbers : List Nat) : Nat := numbers.foldr max 0

section Total

variable (group : List FunctionRecord)

def counterLength : Nat := greatest (group.map fun record => record.counters.length)

def counterTotal (index : Nat) : Count :=
  Count.clamp (group.map fun record => ((record.counters[index]?).getD 0).toNat).sum

def siteLength (kind : ValueKind) : Nat := greatest (group.map fun record => record.siteCount kind)

def siteTotal (kind : ValueKind) (index : Nat) : Site :=
  Site.normalize (group.flatMap fun record => record.siteAt kind index)

def sitesTotal (kind : ValueKind) : List Site :=
  (List.range (siteLength group kind)).map (siteTotal group kind)

def valuesTotal : Option ValueProfile :=
  if group.any fun record => record.values.isSome then
    some ⟨sitesTotal group .indirectCallTarget, sitesTotal group .memOpSize⟩
  else none

def total (id : FunctionId) : FunctionRecord where
  name := id.name
  hash := id.hash
  counters := (List.range (counterLength group)).map (counterTotal group)
  values := valuesTotal group

end Total

theorem greatest_cons (number : Nat) (rest : List Nat) :
    greatest (number :: rest) = max number (greatest rest) := rfl

theorem greatest_single (number : Nat) : greatest [number] = number := Nat.max_zero number

theorem greatest_append (first second : List Nat) :
    greatest (first ++ second) = max (greatest first) (greatest second) := by
  induction first with
  | nil => exact (Nat.zero_max _).symm
  | cons number rest ih =>
      rw [List.cons_append, greatest_cons, ih, greatest_cons, Nat.max_assoc]

theorem le_greatest (numbers : List Nat) (number : Nat) (member : number ∈ numbers) :
    number ≤ greatest numbers := by
  obtain ⟨before, after, rfl⟩ := List.append_of_mem member
  rw [greatest_append, greatest_cons]
  omega

theorem greatest_le (numbers : List Nat) (bound : Nat) (below : ∀ number ∈ numbers, number ≤ bound) :
    greatest numbers ≤ bound := by
  induction numbers with
  | nil => exact Nat.zero_le _
  | cons head rest ih =>
      have first := below head List.mem_cons_self
      have others := ih fun other later => below other (List.mem_cons_of_mem _ later)
      exact Nat.max_le.mpr ⟨first, others⟩

theorem greatest_eq (numbers : List Nat) (number : Nat) (member : number ∈ numbers)
    (below : ∀ other ∈ numbers, other ≤ number) : greatest numbers = number :=
  Nat.le_antisymm (greatest_le numbers number below) (le_greatest numbers number member)

theorem greatest_perm (first second : List Nat) (same : first.Perm second) :
    greatest first = greatest second :=
  same.foldr_eq 0

theorem total_congr (first second : List FunctionRecord) (id : FunctionId)
    (lengths : counterLength first = counterLength second)
    (counters : counterTotal first = counterTotal second)
    (values : valuesTotal first = valuesTotal second) : total first id = total second id := by
  rw [total, total, lengths, counters, values]

section Perm

variable (first second : List FunctionRecord) (same : first.Perm second)

include same

theorem values_total_perm : valuesTotal first = valuesTotal second := by
  have sites : ∀ kind, sitesTotal first kind = sitesTotal second kind := by
    intro kind
    have length : siteLength first kind = siteLength second kind :=
      greatest_perm _ _ (same.map _)
    have each : siteTotal first kind = siteTotal second kind :=
      funext fun index => Site.normalize_perm _ _ (same.flatMap_right _)
    rw [sitesTotal, sitesTotal, length, each]
  rw [valuesTotal, valuesTotal, same.any_eq, sites, sites]

theorem total_perm (id : FunctionId) : total first id = total second id := by
  have length : counterLength first = counterLength second := greatest_perm _ _ (same.map _)
  have each : counterTotal first = counterTotal second := by
    funext index
    rw [counterTotal, counterTotal, (same.map _).sum_nat]
  exact total_congr first second id length each (values_total_perm first second same)

end Perm

theorem counter_total_beyond (group : List FunctionRecord) (index : Nat)
    (beyond : counterLength group ≤ index) : counterTotal group index = 0 := by
  have zeros : group.map (fun record => ((record.counters[index]?).getD 0).toNat) =
      group.map fun _ => 0 := by
    apply List.map_congr_left
    intro record member
    have bound := le_greatest _ _ (List.mem_map_of_mem (f := fun record : FunctionRecord =>
      record.counters.length) member)
    rw [counterLength] at beyond
    rw [List.getElem?_eq_none (by omega)]
    rfl
  rw [counterTotal, zeros, List.map_const', List.sum_replicate_nat, Nat.mul_zero]
  rfl

theorem site_beyond (record : FunctionRecord) (kind : ValueKind) (index : Nat)
    (beyond : record.siteCount kind ≤ index) : record.siteAt kind index = [] := by
  rw [siteCount] at beyond
  rw [siteAt]
  cases found : record.values with
  | none => rfl
  | some values =>
      rw [found] at beyond
      dsimp only at beyond ⊢
      rw [List.getElem?_eq_none beyond]
      rfl

theorem site_total_beyond (group : List FunctionRecord) (kind : ValueKind) (index : Nat)
    (beyond : siteLength group kind ≤ index) : siteTotal group kind index = [] := by
  have nothing : group.flatMap (fun record => record.siteAt kind index) = [] := by
    rw [List.flatMap_eq_nil_iff]
    intro record member
    have bound := le_greatest _ _ (List.mem_map_of_mem (f := fun record : FunctionRecord =>
      record.siteCount kind) member)
    rw [siteLength] at beyond
    exact site_beyond record kind index (by omega)
  rw [siteTotal, nothing]
  rfl

theorem site_length_none (group : List FunctionRecord) (kind : ValueKind)
    (none_known : ¬ (group.any fun record => record.values.isSome) = true) :
    siteLength group kind = 0 := by
  apply Nat.le_zero.mp
  apply greatest_le
  intro count member
  obtain ⟨record, listed, rfl⟩ := List.mem_map.mp member
  cases found : record.values with
  | none =>
      have noSites : record.siteCount kind = 0 := by rw [siteCount, found]
      exact Nat.le_of_eq noSites
  | some values =>
      refine absurd (List.any_eq_true.mpr ⟨record, listed, ?_⟩) none_known
      exact Option.isSome_of_eq_some found

section Part

variable (part : List FunctionRecord) (id : FunctionId)

theorem total_counter (index : Nat) :
    (((total part id).counters[index]?).getD 0) = counterTotal part index := by
  by_cases within : index < counterLength part
  · simp [total, within]
  · rw [counter_total_beyond part index (Nat.le_of_not_lt within)]
    simp [total, within]

theorem total_site_count (kind : ValueKind) :
    (total part id).siteCount kind = siteLength part kind := by
  by_cases known : (part.any fun record => record.values.isSome) = true
  · cases kind <;> simp [siteCount, total, valuesTotal, known, ValueProfile.sites, sitesTotal]
  · simp [siteCount, total, valuesTotal, known, site_length_none part kind known]

theorem total_site (kind : ValueKind) (index : Nat) :
    (total part id).siteAt kind index = siteTotal part kind index := by
  by_cases within : index < siteLength part kind
  · have known : (part.any fun record => record.values.isSome) = true := by
      by_contra none_known
      rw [site_length_none part kind none_known] at within
      exact Nat.not_lt_zero _ within
    cases kind <;> simp [siteAt, total, valuesTotal, known, ValueProfile.sites, sitesTotal, within]
  · have beyond := Nat.le_of_not_lt within
    rw [site_total_beyond part kind index beyond]
    apply site_beyond
    rwa [total_site_count]

theorem total_values_known :
    (total part id).values.isSome = part.any fun record => record.values.isSome := by
  cases known : part.any fun record => record.values.isSome <;> simp [total, valuesTotal, known]

theorem total_part (before after : List FunctionRecord) :
    total (before ++ total part id :: after) id = total (before ++ part ++ after) id := by
  have counterLengths : counterLength (before ++ total part id :: after) =
      counterLength (before ++ part ++ after) := by
    have own : (total part id).counters.length = counterLength part := by simp [total]
    simp only [counterLength, List.map_append, List.map_cons, greatest_append, greatest_cons, own]
    omega
  have counters : counterTotal (before ++ total part id :: after) =
      counterTotal (before ++ part ++ after) := by
    funext index
    simp only [counterTotal, List.map_append, List.map_cons, List.sum_append_nat, List.sum_cons,
      total_counter]
    rw [← Nat.add_assoc]
    exact Count.clamp_part _ _ _
  have sites : ∀ kind, sitesTotal (before ++ total part id :: after) kind =
      sitesTotal (before ++ part ++ after) kind := by
    intro kind
    have lengths : siteLength (before ++ total part id :: after) kind =
        siteLength (before ++ part ++ after) kind := by
      simp only [siteLength, List.map_append, List.map_cons, greatest_append, greatest_cons,
        total_site_count]
      omega
    have each : siteTotal (before ++ total part id :: after) kind =
        siteTotal (before ++ part ++ after) kind := by
      funext index
      simp only [siteTotal, List.flatMap_append, List.flatMap_cons, total_site]
      rw [← List.append_assoc]
      exact Site.normalize_part _ _ _
    rw [sitesTotal, sitesTotal, lengths, each]
  have known : ((before ++ total part id :: after).any fun record => record.values.isSome) =
      (before ++ part ++ after).any fun record => record.values.isSome := by
    simp only [List.any_append, List.any_cons, total_values_known, Bool.or_assoc]
  have values : valuesTotal (before ++ total part id :: after) =
      valuesTotal (before ++ part ++ after) := by
    rw [valuesTotal, valuesTotal, known, sites, sites]
  exact total_congr _ _ id counterLengths counters values

end Part

end FunctionRecord

end ExecCounts
