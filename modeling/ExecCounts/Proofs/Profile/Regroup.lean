import ExecCounts.Proofs.Profile.MergeRecords

set_option autoImplicit false

namespace ExecCounts.Profile

open FunctionRecord (Fits Consistent total)

section Entries

variable {α β : Type} [DecidableEq α]

theorem filter_key (entries : List (α × β)) (distinct : entries.Pairwise fun a b => a.1 ≠ b.1)
    (key : α) (value : β) (member : (key, value) ∈ entries) :
    entries.filter (·.1 == key) = [(key, value)] := by
  induction entries with
  | nil => cases member
  | cons entry rest ih =>
      obtain ⟨first, others⟩ := List.pairwise_cons.mp distinct
      rcases List.mem_cons.mp member with rfl | later
      · have nothing : rest.filter (·.1 == key) = [] := by
          rw [List.filter_eq_nil_iff]
          intro other otherMember same
          exact first other otherMember (beq_iff_eq.mp same).symm
        simp [nothing]
      · have differ : entry.1 ≠ key := first _ later
        simp [differ, ih others later]

end Entries

section Merged

variable (sums : RecordMap) (records : List FunctionRecord) (holds : Sums sums records)

def mergedList : List FunctionRecord := sums.toList.map Prod.snd

include holds

theorem stored_id (entry : FunctionId × FunctionRecord) (member : entry ∈ sums.toList) :
    entry.2.id = entry.1 := by
  have stored := Std.ExtTreeMap.mem_toList_iff_getElem?_eq_some.mp member
  rw [holds] at stored
  split at stored
  · cases stored
  · rw [← Option.some.inj stored]
    rfl

theorem records_of_merged (id : FunctionId) :
    recordsOf (mergedList sums) id = if (recordsOf records id).isEmpty then []
      else [total (recordsOf records id) id] := by
  have byKey : recordsOf (mergedList sums) id =
      (sums.toList.filter (·.1 == id)).map Prod.snd := by
    rw [recordsOf, mergedList, List.filter_map]
    congr 1
    apply List.filter_congr
    intro entry member
    rw [Function.comp_apply, stored_id sums records holds entry member]
  have distinct : sums.toList.Pairwise fun a b => a.1 ≠ b.1 := by
    refine Std.ExtTreeMap.distinct_keys_toList.imp ?_
    intro a b differ same
    exact differ (Std.LawfulEqCmp.compare_eq_iff_eq.mpr same)
  rw [byKey]
  by_cases empty : (recordsOf records id).isEmpty
  · have nothing : sums.toList.filter (·.1 == id) = [] := by
      rw [List.filter_eq_nil_iff]
      intro entry member same
      have stored := Std.ExtTreeMap.mem_toList_iff_getElem?_eq_some.mp member
      rw [holds, beq_iff_eq.mp same, if_pos empty] at stored
      cases stored
    rw [if_pos empty, nothing]
    rfl
  · have stored := holds id
    rw [if_neg empty] at stored ⊢
    rw [filter_key _ distinct id _ (Std.ExtTreeMap.mem_toList_iff_getElem?_eq_some.mpr stored)]
    rfl

end Merged

theorem consistent_perm (first second : List FunctionRecord) (same : first.Perm second) :
    Consistent first ↔ Consistent second := by
  simp only [Consistent, same.mem_iff]

theorem consistent_append (first second : List FunctionRecord) :
    Consistent (first ++ second) ↔ Consistent first ∧ Consistent second ∧
      ∀ one ∈ first, ∀ other ∈ second, Fits one other := by
  constructor
  · intro all
    refine ⟨?_, ?_, ?_⟩
    · intro one oneMember other otherMember
      exact all one (List.mem_append_left _ oneMember) other (List.mem_append_left _ otherMember)
    · intro one oneMember other otherMember
      exact all one (List.mem_append_right _ oneMember) other (List.mem_append_right _ otherMember)
    · intro one oneMember other otherMember
      exact all one (List.mem_append_left _ oneMember) other (List.mem_append_right _ otherMember)
  · rintro ⟨firstAll, secondAll, across⟩ one oneMember other otherMember
    rcases List.mem_append.mp oneMember with oneFirst | oneSecond
    · rcases List.mem_append.mp otherMember with otherFirst | otherSecond
      · exact firstAll one oneFirst other otherFirst
      · exact across one oneFirst other otherSecond
    · rcases List.mem_append.mp otherMember with otherFirst | otherSecond
      · exact (across other otherFirst one oneSecond).symm
      · exact secondAll one oneSecond other otherSecond

theorem consistent_part (before part after : List FunctionRecord) (id : FunctionId)
    (consistent : Consistent part) (nonempty : part ≠ []) :
    Consistent (before ++ total part id :: after) ↔ Consistent (before ++ part ++ after) := by
  have fits := fun other => FunctionRecord.fits_total_iff part consistent id other nonempty
  have single : Consistent [total part id] := by
    intro one oneMember other otherMember
    cases List.mem_singleton.mp oneMember
    cases List.mem_singleton.mp otherMember
    exact Fits.refl _
  have sumFirst : (before ++ total part id :: after).Perm ([total part id] ++ (before ++ after)) :=
    List.perm_middle
  have partFirst : (before ++ part ++ after).Perm (part ++ (before ++ after)) := by
    rw [← List.append_assoc]
    exact List.perm_append_comm.append_right after
  rw [consistent_perm _ _ sumFirst, consistent_perm _ _ partFirst,
    consistent_append [total part id] (before ++ after), consistent_append part (before ++ after)]
  constructor
  · rintro ⟨-, others, across⟩
    refine ⟨consistent, others, ?_⟩
    intro one oneMember other otherMember
    exact (fits other).mp (across _ List.mem_cons_self other otherMember) one oneMember
  · rintro ⟨-, others, across⟩
    refine ⟨single, others, ?_⟩
    intro one oneMember other otherMember
    cases List.mem_singleton.mp oneMember
    exact (fits other).mpr fun inner innerMember => across inner innerMember other otherMember

section Regroup

variable (sums : RecordMap) (records before after : List FunctionRecord)
  (holds : Sums sums records)

include holds

theorem records_of_regrouped (id : FunctionId) :
    (recordsOf (before ++ mergedList sums ++ after) id = recordsOf (before ++ records ++ after) id ∧
        recordsOf records id = []) ∨
      recordsOf records id ≠ [] ∧ recordsOf (before ++ mergedList sums ++ after) id =
        recordsOf before id ++ total (recordsOf records id) id :: recordsOf after id := by
  have merged := records_of_merged sums records holds id
  by_cases empty : recordsOf records id = []
  · left
    rw [empty] at merged
    simp only [records_of_append, merged, empty, List.isEmpty_nil, if_true, and_self]
  · right
    rw [if_neg (mt List.isEmpty_iff.mp empty)] at merged
    refine ⟨empty, ?_⟩
    simp only [records_of_append, merged, List.append_assoc, List.singleton_append]

theorem agreeing_regrouped (agreeing : Agreeing records) :
    Agreeing (before ++ mergedList sums ++ after) ↔ Agreeing (before ++ records ++ after) := by
  have each : ∀ id, Consistent (recordsOf (before ++ mergedList sums ++ after) id) ↔
      Consistent (recordsOf (before ++ records ++ after) id) := by
    intro id
    obtain ⟨same, -⟩ | ⟨nonempty, shape⟩ := records_of_regrouped sums records before after holds id
    · rw [same]
    · rw [shape, consistent_part _ _ _ id (agreeing id) nonempty]
      simp only [records_of_append]
  exact forall_congr' each

theorem sums_regrouped (whole : RecordMap) :
    Sums whole (before ++ mergedList sums ++ after) ↔ Sums whole (before ++ records ++ after) := by
  apply forall_congr'
  intro id
  obtain ⟨same, -⟩ | ⟨nonempty, shape⟩ := records_of_regrouped sums records before after holds id
  · rw [same]
  · have total_same := FunctionRecord.total_part (recordsOf records id) id (recordsOf before id)
      (recordsOf after id)
    have some_sum : ¬ (recordsOf before id ++
        total (recordsOf records id) id :: recordsOf after id).isEmpty = true := by
      simp
    have some_record : ¬ (recordsOf before id ++ recordsOf records id ++
        recordsOf after id).isEmpty = true := by
      simp [nonempty]
    rw [shape, if_neg some_sum, total_same, records_of_append, records_of_append, if_neg some_record]

end Regroup

theorem records_of_perm (first second : List FunctionRecord) (same : first.Perm second)
    (id : FunctionId) : (recordsOf first id).Perm (recordsOf second id) :=
  same.filter _

theorem agreeing_perm (first second : List FunctionRecord) (same : first.Perm second) :
    Agreeing first ↔ Agreeing second :=
  forall_congr' fun id => consistent_perm _ _ (records_of_perm first second same id)

theorem agreeing_after (first second : List FunctionRecord) (agreeing : Agreeing (first ++ second)) :
    Agreeing second :=
  agreeing_before second first ((agreeing_perm _ _ List.perm_append_comm).mp agreeing)

theorem sums_perm (whole : RecordMap) (first second : List FunctionRecord)
    (same : first.Perm second) : Sums whole first ↔ Sums whole second := by
  apply forall_congr'
  intro id
  have group := records_of_perm first second same id
  rw [group.isEmpty_eq, FunctionRecord.total_perm _ _ group]

end ExecCounts.Profile
