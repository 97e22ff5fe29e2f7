import ExecCounts.Proofs.Indexed.Rejected
import ExecCounts.Proofs.Raw.Rejected

set_option autoImplicit false

namespace ExecCounts

theorem writers_reject_defects (version : Version) (profile : Profile) :
    (Raw.laidOutSize version profile < UInt32.size →
      Rejects (fun record => record ∈ profile.records ∧ Raw.Defect record)
        (Raw.write version false profile)) ∧
    (Indexed.laidOutSize version profile < UInt32.size →
      Rejects (fun record => record ∈ profile.records ∧ Indexed.Defect version record)
        (Indexed.write version profile)) :=
  ⟨Raw.write_rejects version profile, fun small => Indexed.write_rejects small⟩

def wideCounter : Profile where
  format := .raw
  version := some .v11
  variant := .plain
  records := [⟨"f", 7, [3, 0xffffffff], none⟩, ⟨"g", 9, [0x100000000], none⟩]
  binaryIds := []
  skipped := []

theorem writers_reject_wide_counter :
    Raw.laidOutSize .v11 wideCounter < UInt32.size ∧
      Indexed.laidOutSize .v11 wideCounter < UInt32.size ∧
        (∃ data, Raw.write .v11 false wideCounter = .ok data) ∧
          ∃ failure, Indexed.write .v11 wideCounter = .error failure ∧
            failure.kind = .writeFailed ∧ failure.function = some ⟨"g", 9⟩ := by
  have rawSmall : Raw.laidOutSize .v11 wideCounter < UInt32.size := by decide +kernel
  have indexedSmall : Indexed.laidOutSize .v11 wideCounter < UInt32.size := by decide +kernel
  have raw := (writers_reject_defects .v11 wideCounter).1 rawSmall
  have indexed := (writers_reject_defects .v11 wideCounter).2 indexedSmall
  refine ⟨rawSmall, indexedSmall, ?_, ?_⟩
  · by_contra refused
    obtain ⟨record, listed, defect⟩ := raw.fails_iff.mp ((fails_iff_not_succeeds _).mpr refused)
    have sound : ∀ record ∈ wideCounter.records,
        record.name ≠ "" ∧ Raw.nameSeparator ∉ Utf8.bytes record.name ∧ record.values = none := by
      decide +kernel
    obtain ⟨named, plain, noValues⟩ := sound record listed
    cases defect with
    | unnamed empty => exact named empty
    | separated within => exact plain within
    | sites kind many =>
        rw [FunctionRecord.siteCount, noValues] at many
        cases many
    | values crowded =>
        obtain ⟨values, stored, -⟩ := crowded
        rw [noValues] at stored
        cases stored
  · obtain ⟨failure, failed⟩ := indexed.fails_iff.mpr ⟨⟨"g", 9, [0x100000000], none⟩,
      List.mem_cons_of_mem _ List.mem_cons_self,
      .counter rfl ⟨0x100000000, List.mem_cons_self, by decide⟩⟩
    obtain ⟨kind, record, ⟨listed, defect⟩, named⟩ := indexed.blames failure failed
    refine ⟨failure, failed, kind, ?_⟩
    rw [named]
    cases listed with
    | head =>
      cases defect with
      | counter _ wide => exact absurd wide (by decide)
      | values later => exact absurd later (by decide)
    | tail _ listed =>
      cases listed with
      | head => rfl
      | tail _ listed => cases listed

end ExecCounts
