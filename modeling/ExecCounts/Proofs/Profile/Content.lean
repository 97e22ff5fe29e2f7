import ExecCounts.Proofs.Profile.Regroup
import ExecCounts.Proofs.Utf8.Order

set_option autoImplicit false

namespace ExecCounts

namespace Site

structure SumOf (seen sum : Site) : Prop where
  ascending : sum.Pairwise fun a b => a.value < b.value
  listed : ∀ value, (∃ entry ∈ sum, entry.value = value) ↔ ∃ entry ∈ seen, entry.value = value
  counts : ∀ entry ∈ sum, entry.count.toNat =
    min ((seen.filter (·.value == entry.value)).map fun part => part.count.toNat).sum (2 ^ 64 - 1)

theorem sees_iff (site : Site) (value : UInt64) :
    sees site value = true ↔ ∃ entry ∈ site, entry.value = value := by
  simp [sees]

theorem mem_normalize (site : Site) (entry : Observation) :
    entry ∈ normalize site ↔
      sees site entry.value = true ∧ entry.count = Count.clamp (weight site entry.value) := by
  have stored : entry ∈ normalize site ↔ (tally site)[entry.value]? = some entry.count := by
    rw [← Std.ExtTreeMap.mem_toList_iff_getElem?_eq_some, normalize, List.mem_map]
    constructor
    · rintro ⟨⟨value, count⟩, member, rfl⟩
      exact member
    · intro member
      exact ⟨_, member, rfl⟩
  rw [stored, tally_get]
  by_cases seen : sees site entry.value = true
  · simp [seen, eq_comm]
  · simp [seen]

theorem normalize_sum (site : Site) : SumOf site (normalize site) where
  ascending := by
    rw [normalize, List.pairwise_map]
    exact Std.ExtTreeMap.ordered_keys_toList.imp Std.compare_eq_lt.mp
  listed value := by
    constructor
    · rintro ⟨entry, member, rfl⟩
      exact (sees_iff site entry.value).mp ((mem_normalize site entry).mp member).1
    · intro seen
      have total : ⟨value, Count.clamp (weight site value)⟩ ∈ normalize site :=
        (mem_normalize site _).mpr ⟨(sees_iff site value).mpr seen, rfl⟩
      exact ⟨_, total, rfl⟩
  counts entry member := by
    rw [((mem_normalize site entry).mp member).2, Count.to_nat_clamp]
    rfl

end Site

namespace FunctionRecord

structure SumOf (group : List FunctionRecord) (sum : FunctionRecord) : Prop where
  length : ∀ record ∈ group, sum.counters.length = record.counters.length
  counters : ∀ (index : Nat) (count : Count), sum.counters[index]? = some count → count.toNat =
    min (group.map fun record => ((record.counters[index]?).getD 0).toNat).sum (2 ^ 64 - 1)
  unknown : sum.values = none ↔ ∀ record ∈ group, record.values = none
  lengths : ∀ values ∈ sum.values, ∀ record ∈ group, ∀ own ∈ record.values, ∀ kind,
    (values.sites kind).length = (own.sites kind).length
  sites : ∀ values ∈ sum.values, ∀ (kind : ValueKind) (index : Nat) (site : Site),
    (values.sites kind)[index]? = some site →
      Site.SumOf (group.flatMap fun record => record.siteAt kind index) site

section Total

variable (group : List FunctionRecord) (id : FunctionId)

theorem total_values (values : ValueProfile) (found : (total group id).values = some values)
    (kind : ValueKind) : values.sites kind = sitesTotal group kind := by
  rw [total, valuesTotal] at found
  split at found
  · cases found
    cases kind <;> rfl
  · cases found

theorem total_unknown_iff :
    (total group id).values = none ↔ ∀ record ∈ group, record.values = none := by
  rw [← Option.isNone_iff_eq_none, ← Option.not_isSome, total_values_known]
  simp

theorem total_sum (consistent : Consistent group) : SumOf group (total group id) where
  length record member := by
    rw [← counter_length_eq group consistent record member]
    simp [total]
  counters index count found := by
    rw [total, List.getElem?_map, Option.map_eq_some_iff] at found
    obtain ⟨place, within, rfl⟩ := found
    obtain ⟨-, rfl⟩ := List.getElem?_eq_some_iff.mp within
    rw [List.getElem_range, counterTotal, Count.to_nat_clamp]
    rfl
  unknown := total_unknown_iff group id
  lengths values found record member own known kind := by
    rw [total_values group id values found, ← site_length_eq group consistent record member own known]
    simp [sitesTotal]
  sites values found kind index site at_index := by
    rw [total_values group id values found, sitesTotal, List.getElem?_map,
      Option.map_eq_some_iff] at at_index
    obtain ⟨place, within, rfl⟩ := at_index
    obtain ⟨-, rfl⟩ := List.getElem?_eq_some_iff.mp within
    rw [List.getElem_range]
    exact Site.normalize_sum _

end Total

end FunctionRecord

namespace Profile

open FunctionRecord (SumOf Consistent total)

section Merged

variable (sums : RecordMap) (records : List FunctionRecord) (holds : Sums sums records)

include holds

theorem merged_ascending :
    (mergedList sums).Pairwise fun a b => a.id.Before b.id := by
  rw [mergedList, List.pairwise_map]
  refine Std.ExtTreeMap.ordered_keys_toList.imp_of_mem ?_
  intro a b aMember bMember order
  rw [stored_id sums records holds a aMember, stored_id sums records holds b bMember]
  exact (FunctionId.before_iff _ _).mpr order

theorem merged_identities (id : FunctionId) :
    (∃ record ∈ mergedList sums, record.id = id) ↔ ∃ record ∈ records, record.id = id := by
  have known : ∀ listed : List FunctionRecord,
      (∃ record ∈ listed, record.id = id) ↔ recordsOf listed id ≠ [] := by
    intro listed
    simp [recordsOf, List.filter_eq_nil_iff]
  rw [known, known, records_of_merged sums records holds]
  by_cases empty : recordsOf records id = [] <;> simp [empty]

theorem merged_totals (record : FunctionRecord) (member : record ∈ mergedList sums) :
    record = total (recordsOf records record.id) record.id := by
  have own : record ∈ recordsOf (mergedList sums) record.id := by
    simp [recordsOf, member]
  rw [records_of_merged sums records holds] at own
  split at own
  · cases own
  · exact List.mem_singleton.mp own

end Merged

theorem merge_succeeded_iff (ours theirs merged : Profile) :
    ours.merge theirs = ⟨merged, none⟩ ↔ ours.combine theirs = .ok merged := by
  rw [merge]
  cases ours.combine theirs with
  | ok combined => simp
  | error failure => simp

theorem merge_content (ours theirs merged : Profile)
    (succeeded : ours.merge theirs = ⟨merged, none⟩) :
    (merged.records.Pairwise fun a b => a.id.Before b.id) ∧
    (∀ id, (∃ record ∈ merged.records, record.id = id) ↔
      ∃ record ∈ ours.records ++ theirs.records, record.id = id) ∧
    ∀ sum ∈ merged.records,
      SumOf ((ours.records ++ theirs.records).filter (·.id == sum.id)) sum := by
  rw [merge_succeeded_iff, combine, bind_ok_iff] at succeeded
  obtain ⟨records, ran, same⟩ := succeeded
  obtain ⟨agreeing, sums, holds, rfl⟩ := (merge_records_ok_iff _ _).mp ran
  cases (pure_ok_iff _ _).mp same
  refine ⟨merged_ascending sums _ holds, merged_identities sums _ holds, ?_⟩
  intro sum member
  have content := FunctionRecord.total_sum _ sum.id (agreeing sum.id)
  rw [← merged_totals sums _ holds sum member] at content
  exact content

/-- One function has two records in the morning, only one of them with values, and a third one with
values in the evening. Two sums exceed the limit of counts. -/
def morningRun : Profile :=
  { empty .raw with
    version := some .v13
    records := [⟨"g", 2, [1], none⟩,
      ⟨"f", 1, [0xfffffffffffffffe, 3], some ⟨[[⟨9, 2⟩, ⟨7, 1⟩, ⟨9, 3⟩]], []⟩⟩,
      ⟨"f", 1, [5, 4], none⟩] }

def eveningRun : Profile :=
  { empty .text with
    records := [⟨"é", 3, [], none⟩,
      ⟨"f", 1, [0, 1], some ⟨[[⟨7, 0xffffffffffffffff⟩, ⟨8, 0⟩]], []⟩⟩] }

def wholeDay : Profile :=
  { empty .text with
    version := some .v13
    records := [⟨"f", 1, [0xffffffffffffffff, 8],
        some ⟨[[⟨7, 0xffffffffffffffff⟩, ⟨8, 0⟩, ⟨9, 5⟩]], []⟩⟩,
      ⟨"g", 2, [1], none⟩, ⟨"é", 3, [], none⟩] }

theorem merge_content_whole_day :
    morningRun.merge eveningRun = ⟨wholeDay, none⟩ ∧
    (wholeDay.records.Pairwise fun a b => a.id.Before b.id) ∧
    (∀ id, (∃ record ∈ wholeDay.records, record.id = id) ↔
      ∃ record ∈ morningRun.records ++ eveningRun.records, record.id = id) ∧
    ∀ sum ∈ wholeDay.records,
      SumOf ((morningRun.records ++ eveningRun.records).filter (·.id == sum.id)) sum := by
  have succeeded : morningRun.merge eveningRun = ⟨wholeDay, none⟩ := by decide +kernel
  exact ⟨succeeded, merge_content morningRun eveningRun wholeDay succeeded⟩

end Profile

end ExecCounts
