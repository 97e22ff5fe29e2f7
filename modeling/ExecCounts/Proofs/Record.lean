import ExecCounts.Proofs.Value.Blob
import ExecCounts.Record

set_option autoImplicit false

namespace ExecCounts.FunctionRecord

/-- No encoding tells a value profile without any site from none. -/
def pruned (record : FunctionRecord) : FunctionRecord :=
  { record with values := record.values.filter fun values => !values.isEmpty }

theorem pruned_none_iff (record : FunctionRecord) :
    record.pruned.values = none ↔ ∀ kind, record.siteCount kind = 0 := by
  cases stored : record.values with
  | none => simp [pruned, siteCount, stored]
  | some values =>
      rw [pruned, stored, Option.filter_eq_none_iff]
      have each : values.isEmpty = true ↔ ∀ kind, (values.sites kind).length = 0 := by
        rw [ValueProfile.isEmpty, List.all_eq_true]
        constructor
        · intro empty kind
          rw [List.length_eq_zero_iff, ← List.isEmpty_iff]
          exact empty kind (by cases kind <;> decide)
        · intro empty kind _
          rw [List.isEmpty_iff, ← List.length_eq_zero_iff]
          exact empty kind
      simp [siteCount, stored, each]

theorem pruned_sites (record : FunctionRecord) (values : ValueProfile)
    (kept : record.pruned.values = some values) (kind : ValueKind) :
    (values.sites kind).length = record.siteCount kind := by
  rw [pruned, Option.filter_eq_some_iff] at kept
  simp [siteCount, kept.1]

def Crowded (record : FunctionRecord) : Prop :=
  ∃ values ∈ record.values, ∃ kind, ∃ site ∈ values.sites kind, 255 < site.length

def blobSize (record : FunctionRecord) : Nat := (record.pruned.values.map Blob.size).getD 0

theorem pruned_values (record : FunctionRecord) :
    record.pruned.values = record.values.filter fun values => !values.isEmpty := rfl

theorem storable_iff (record : FunctionRecord) (small : record.blobSize < UInt32.size) :
    (∀ values ∈ record.pruned.values, Blob.Storable values) ↔ ¬ record.Crowded := by
  rw [blobSize, pruned_values] at small
  rw [pruned_values, Crowded]
  cases stored : record.values with
  | none => simp
  | some values =>
      rw [stored, Option.filter_some] at small
      rw [Option.filter_some]
      cases empty : values.isEmpty with
      | true =>
          obtain rfl := (ValueProfile.is_empty_iff values).mp empty
          refine iff_of_true nofun ?_
          rintro ⟨_, ⟨⟩, kind, site, listed, -⟩
          cases kind <;> cases listed
      | false =>
          rw [empty] at small
          simp only [Bool.not_false, if_true, Option.mem_some_iff, forall_eq', exists_eq_left']
          constructor
          · rintro storable ⟨kind, site, listed, large⟩
            have fits := storable.values kind site listed
            omega
          · intro sparse
            refine ⟨fun kind site listed => ?_, small⟩
            by_contra large
            exact sparse ⟨kind, site, listed, by omega⟩

end ExecCounts.FunctionRecord
