import ExecCounts.Proofs.Indexed.Damaged
import ExecCounts.Proofs.Raw.Damaged

set_option autoImplicit false

namespace ExecCounts

/-- In a raw profile the damage is to everything but the numbers of value sites. In an indexed one
it is to a whole row of the record table, of versions that have no checksum. -/
theorem damage_stays_in_profile_record (profile : Profile) (index : Nat)
    (known : index < profile.records.length) :
    (∀ (deflate : Bytes → Bytes) (version : Version) (compress : Bool) (data patch : Bytes),
      (compress = true → ∀ payload, Zlib.inflate (deflate payload) = .complete payload) →
      Raw.writeWith deflate version compress profile = .ok data →
      (Raw.joinNames (Raw.storedNames profile)).length < UInt64.size →
      data.length < UInt64.size →
      patch.length = 44 →
      ∃ whole left skipped, Raw.parse .bestEffort data = .ok whole ∧
        whole.records = profile.records.map FunctionRecord.pruned ∧
        Raw.parse .bestEffort (data.overwrite (Raw.recordStart version profile index) patch) =
          .ok { whole with records := left, skipped } ∧
        SparedBut index whole.records left skipped) ∧
    ∀ (version : Version) (data patch : Bytes),
      version = .v11 ∨ version = .v12 →
      Indexed.write version profile = .ok data →
      data.length < UInt64.size →
      patch.length = version.indexedLayout.recordSize →
      ∃ file damaged whole left skipped, Indexed.openFile data = .ok file ∧
        file.toProfile .bestEffort = .ok whole ∧
        whole.records = profile.records.map (FunctionRecord.stored version.indexedLayout) ∧
        Indexed.openFile (data.overwrite (Indexed.recordsStart version profile +
          index * version.indexedLayout.recordSize) patch) = .ok damaged ∧
        damaged.toProfile .bestEffort = .ok { whole with records := left, skipped } ∧
        SparedBut index whole.records left skipped := by
  constructor
  · intro deflate version compress data patch lossless written namesFit fits length
    exact Raw.written_damaged_read deflate version compress profile data lossless written namesFit
      fits index known patch length
  · intro version data patch old written fits length
    exact Indexed.written_damaged_read version profile data old written fits index known patch length

theorem Indexed.write_shared_name : ∃ data : Bytes,
    Indexed.write .v12 Raw.sharedName = .ok data ∧ data.length = 374 := by
  have buckets : Indexed.bucketCountFor Raw.sharedName.records.length = 4 := by cbv
  apply (to_option_map_some_iff _ List.length _).mp
  unfold Indexed.write
  simp only [buckets]
  decide +kernel

theorem damage_stays_in_profile_record_shared_name : ∃ raw indexed : Bytes,
    0 < Raw.sharedName.records.length ∧
    Raw.writeWith Zlib.deflate .v14 true Raw.sharedName = .ok raw ∧
    Indexed.write .v12 Raw.sharedName = .ok indexed ∧
    (∃ whole left skipped, Raw.parse .bestEffort raw = .ok whole ∧
      whole.records = Raw.sharedName.records.map FunctionRecord.pruned ∧
      Raw.parse .bestEffort
        (raw.overwrite (Raw.recordStart .v14 Raw.sharedName 0) (Bytes.zeros 44)) =
          .ok { whole with records := left, skipped } ∧
      SparedBut 0 whole.records left skipped) ∧
    ∃ file damaged whole left skipped, Indexed.openFile indexed = .ok file ∧
      file.toProfile .bestEffort = .ok whole ∧
      whole.records =
        Raw.sharedName.records.map (FunctionRecord.stored Version.v12.indexedLayout) ∧
      Indexed.openFile (indexed.overwrite (Indexed.recordsStart .v12 Raw.sharedName +
        0 * Version.v12.indexedLayout.recordSize) (Bytes.zeros 44)) = .ok damaged ∧
      damaged.toProfile .bestEffort = .ok { whole with records := left, skipped } ∧
      SparedBut 0 whole.records left skipped := by
  have known : 0 < Raw.sharedName.records.length := by decide
  have namesFit : (Raw.joinNames (Raw.storedNames Raw.sharedName)).length < UInt64.size := by
    decide +kernel
  obtain ⟨raw, rawWritten, rawLength⟩ := Raw.write_shared_name
  have rawFits : raw.length < UInt64.size := by
    rw [rawLength]
    decide
  obtain ⟨indexed, indexedWritten, indexedLength⟩ := Indexed.write_shared_name
  have indexedFits : indexed.length < UInt64.size := by
    rw [indexedLength]
    decide
  obtain ⟨rawRead, indexedRead⟩ := damage_stays_in_profile_record Raw.sharedName 0 known
  exact ⟨raw, indexed, known, rawWritten, indexedWritten,
    rawRead Zlib.deflate .v14 true raw (Bytes.zeros 44) (fun _ => Zlib.inflate_deflate) rawWritten
      namesFit rawFits (by decide),
    indexedRead .v12 indexed (Bytes.zeros 44) (.inr rfl) indexedWritten indexedFits (by decide)⟩

end ExecCounts
