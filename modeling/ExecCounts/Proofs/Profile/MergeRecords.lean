import ExecCounts.Proofs.Outcome
import ExecCounts.Proofs.Profile.RecordMerge

set_option autoImplicit false

namespace ExecCounts.Profile

open FunctionRecord (Fits Consistent total)

def recordsOf (records : List FunctionRecord) (id : FunctionId) : List FunctionRecord :=
  records.filter (·.id == id)

def Agreeing (records : List FunctionRecord) : Prop :=
  ∀ id : FunctionId, Consistent (recordsOf records id)

def Sums (merged : RecordMap) (records : List FunctionRecord) : Prop :=
  ∀ id : FunctionId, merged[id]? = if (recordsOf records id).isEmpty then none
    else some (total (recordsOf records id) id)

theorem records_of_append (first second : List FunctionRecord) (id : FunctionId) :
    recordsOf (first ++ second) id = recordsOf first id ++ recordsOf second id :=
  List.filter_append first second

theorem records_of_snoc (records : List FunctionRecord) (record : FunctionRecord) :
    recordsOf (records ++ [record]) record.id = recordsOf records record.id ++ [record] := by
  have own : recordsOf [record] record.id = [record] := by simp [recordsOf]
  rw [records_of_append, own]

theorem records_of_other (records : List FunctionRecord) (record : FunctionRecord)
    (id : FunctionId) (other : record.id ≠ id) :
    recordsOf (records ++ [record]) id = recordsOf records id := by
  have missing : recordsOf [record] id = [] := by simp [recordsOf, other]
  rw [records_of_append, missing, List.append_nil]

theorem consistent_before (first second : List FunctionRecord) (id : FunctionId)
    (consistent : Consistent (recordsOf (first ++ second) id)) : Consistent (recordsOf first id) := by
  intro one oneMember two twoMember
  rw [records_of_append] at consistent
  exact consistent one (List.mem_append_left _ oneMember) two (List.mem_append_left _ twoMember)

theorem agreeing_before (first second : List FunctionRecord) (agreeing : Agreeing (first ++ second)) :
    Agreeing first :=
  fun id => consistent_before first second id (agreeing id)

structure Blames (records : List FunctionRecord) (failure : Failure) : Prop where
  kind : failure.kind = .counterCountMismatch
  function : ∃ id, failure.function = some id ∧ ¬ Consistent (recordsOf records id)

theorem Blames.append {first : List FunctionRecord} {failure : Failure}
    (blames : Blames first failure) (second : List FunctionRecord) :
    Blames (first ++ second) failure where
  kind := blames.kind
  function := by
    obtain ⟨id, named, conflict⟩ := blames.function
    exact ⟨id, named, fun consistent => conflict (consistent_before first second id consistent)⟩

section Step

variable (merged : RecordMap) (records : List FunctionRecord) (record : FunctionRecord)
  (sums : Sums merged records)

theorem agreeing_snoc (agreeing : Agreeing records)
    (fits : ∀ other ∈ recordsOf records record.id, Fits other record) :
    Agreeing (records ++ [record]) := by
  intro id
  by_cases same : record.id = id
  · subst same
    rw [records_of_snoc]
    intro one oneMember two twoMember
    rcases List.mem_append.mp oneMember with oneOld | oneNew
    · rcases List.mem_append.mp twoMember with twoOld | twoNew
      · exact agreeing _ one oneOld two twoOld
      · cases List.mem_singleton.mp twoNew
        exact fits one oneOld
    · cases List.mem_singleton.mp oneNew
      rcases List.mem_append.mp twoMember with twoOld | twoNew
      · exact (fits two twoOld).symm
      · cases List.mem_singleton.mp twoNew
        exact Fits.refl record
  · rw [records_of_other records record id same]
    exact agreeing id

include sums

theorem sums_insert (sum : FunctionRecord)
    (whole : sum = total (recordsOf records record.id ++ [record]) record.id) :
    Sums (merged.insert record.id sum) (records ++ [record]) := by
  intro id
  rw [Std.ExtTreeMap.getElem?_insert]
  simp only [Std.LawfulEqCmp.compare_eq_iff_eq]
  by_cases same : record.id = id
  · subst same
    rw [if_pos rfl, records_of_snoc, whole]
    simp
  · rw [if_neg same, records_of_other records record id same]
    exact sums id

theorem add_record_agreeing (agreeing : Agreeing (records ++ [record])) :
    ∃ after, addRecord merged record = .ok after ∧ Sums after (records ++ [record]) := by
  have stored := sums record.id
  by_cases empty : (recordsOf records record.id).isEmpty
  · rw [if_pos empty] at stored
    refine ⟨merged.insert record.id record.normalize, by rw [addRecord, stored], ?_⟩
    apply sums_insert merged records record sums
    rw [List.isEmpty_iff.mp empty, List.nil_append, FunctionRecord.total_single]
  · rw [if_neg empty] at stored
    have consistent := agreeing_before records [record] agreeing record.id
    have fits : Fits (total (recordsOf records record.id) record.id) record := by
      rw [FunctionRecord.fits_total_iff _ consistent _ _ (mt List.isEmpty_iff.mpr empty)]
      intro other member
      apply agreeing record.id
      · rw [records_of_snoc]
        exact List.mem_append_left _ member
      · rw [records_of_snoc]
        exact List.mem_append_right _ List.mem_cons_self
    have sum := FunctionRecord.merge_total (recordsOf records record.id) record.id record fits
    refine ⟨merged.insert record.id _, by rw [addRecord, stored]; dsimp only; rw [sum], ?_⟩
    exact sums_insert merged records record sums _ rfl

theorem add_record_conflict (agreeing : Agreeing records)
    (conflict : ¬ Agreeing (records ++ [record])) :
    ∃ failure, addRecord merged record = .error failure ∧ Blames (records ++ [record]) failure := by
  have stored := sums record.id
  have unfit : ¬ ∀ other ∈ recordsOf records record.id, Fits other record :=
    fun fits => conflict (agreeing_snoc records record agreeing fits)
  have nonempty : recordsOf records record.id ≠ [] := by
    intro empty
    rw [empty] at unfit
    exact unfit nofun
  have own : ¬ Consistent (recordsOf (records ++ [record]) record.id) := by
    intro consistent
    rw [records_of_snoc] at consistent
    exact unfit fun other member =>
      consistent other (List.mem_append_left _ member) record (by simp)
  rw [if_neg (mt List.isEmpty_iff.mp nonempty)] at stored
  rw [← FunctionRecord.fits_total_iff _ (agreeing record.id) record.id record nonempty] at unfit
  obtain ⟨failure, sum, kind, function⟩ := FunctionRecord.merge_unfit _ _ unfit
  refine ⟨failure, ?_, kind, record.id, function, own⟩
  rw [addRecord, stored]
  dsimp only
  rw [sum]

end Step

theorem fold_records_agreeing (merged : RecordMap) (done rest : List FunctionRecord)
    (sums : Sums merged done) (agreeing : Agreeing (done ++ rest)) :
    ∃ after, rest.foldlM addRecord merged = .ok after ∧ Sums after (done ++ rest) := by
  induction rest generalizing merged done with
  | nil =>
      rw [List.append_nil]
      exact ⟨merged, rfl, sums⟩
  | cons record rest ih =>
      rw [List.append_cons] at agreeing ⊢
      obtain ⟨next, added, nextSums⟩ :=
        add_record_agreeing merged done record sums (agreeing_before _ rest agreeing)
      obtain ⟨after, ran, afterSums⟩ := ih next (done ++ [record]) nextSums agreeing
      refine ⟨after, ?_, afterSums⟩
      rw [List.foldlM_cons, added]
      exact ran

theorem fold_records_conflict (merged : RecordMap) (done rest : List FunctionRecord)
    (sums : Sums merged done) (agreeing : Agreeing done) (conflict : ¬ Agreeing (done ++ rest)) :
    ∃ failure, rest.foldlM addRecord merged = .error failure ∧ Blames (done ++ rest) failure := by
  induction rest generalizing merged done with
  | nil =>
      rw [List.append_nil] at conflict
      exact absurd agreeing conflict
  | cons record rest ih =>
      rw [List.append_cons] at conflict ⊢
      rw [List.foldlM_cons]
      by_cases still : Agreeing (done ++ [record])
      · obtain ⟨next, added, nextSums⟩ := add_record_agreeing merged done record sums still
        rw [added]
        exact ih next (done ++ [record]) nextSums still conflict
      · obtain ⟨failure, failed, blames⟩ := add_record_conflict merged done record sums agreeing still
        rw [failed]
        exact ⟨failure, rfl, blames.append rest⟩

theorem sums_nil : Sums ∅ [] :=
  fun _ => Std.ExtTreeMap.getElem?_empty

theorem agreeing_nil : Agreeing [] :=
  fun _ _ member => nomatch member

theorem sums_unique (first second : RecordMap) (records : List FunctionRecord)
    (firstSums : Sums first records) (secondSums : Sums second records) : first = second := by
  apply Std.ExtTreeMap.ext_getElem?
  intro id
  rw [firstSums, secondSums]

theorem merge_records_agreeing (records : List FunctionRecord) (agreeing : Agreeing records) :
    ∃ sums : RecordMap, Sums sums records ∧ mergeRecords records = .ok (sums.toList.map Prod.snd) := by
  obtain ⟨sums, ran, holds⟩ := fold_records_agreeing ∅ [] records sums_nil agreeing
  exact ⟨sums, holds, by rw [mergeRecords, ran]; rfl⟩

theorem merge_records_conflict (records : List FunctionRecord) (conflict : ¬ Agreeing records) :
    ∃ failure, mergeRecords records = .error failure ∧ Blames records failure := by
  obtain ⟨failure, failed, blames⟩ :=
    fold_records_conflict ∅ [] records sums_nil agreeing_nil conflict
  exact ⟨failure, by rw [mergeRecords, failed]; rfl, blames⟩

theorem merge_records_ok_iff (records merged : List FunctionRecord) :
    mergeRecords records = .ok merged ↔ Agreeing records ∧
      ∃ sums : RecordMap, Sums sums records ∧ merged = sums.toList.map Prod.snd := by
  by_cases agreeing : Agreeing records
  · obtain ⟨sums, holds, ran⟩ := merge_records_agreeing records agreeing
    constructor
    · intro found
      cases ran.symm.trans found
      exact ⟨agreeing, sums, holds, rfl⟩
    · rintro ⟨-, others, othersHold, rfl⟩
      rw [sums_unique others sums records othersHold holds, ran]
  · obtain ⟨failure, failed, -⟩ := merge_records_conflict records agreeing
    constructor
    · intro found
      rw [failed] at found
      cases found
    · rintro ⟨agrees, -⟩
      exact absurd agrees agreeing

end ExecCounts.Profile
