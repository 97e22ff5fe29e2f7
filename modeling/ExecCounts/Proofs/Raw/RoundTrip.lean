import ExecCounts.Proofs.Deflate.StoredBlocks
import ExecCounts.Proofs.Raw.Records
import ExecCounts.Proofs.Raw.Written

set_option autoImplicit false

namespace ExecCounts.Raw

section Written

variable {deflate : Bytes → Bytes} {version : Version} {compress : Bool} {profile : Profile}

theorem written_entry_fits
    (namesFit : (joinNames (storedNames profile)).length < UInt64.size)
    (writable : ∀ name ∈ storedNames profile, isWritableName name = true)
    (seen others : List Count) (index : Nat) (record : FunctionRecord)
    (split : profile.records.flatMap FunctionRecord.counters = seen ++ (record.counters ++ others))
    (member : record ∈ profile.records) (fits : RecordFits record) :
    (writtenDump deflate version compress profile).EntryFits (placedNames 0 (storedNames profile))
      index (writtenEntry (storedNames profile) seen.length record) := by
  have listed : record.name ∈ storedNames profile :=
    (NamePool.mem_distinct _ _).mpr (List.mem_map_of_mem member)
  have named := placed_name_mem 0 _ _ listed
  have within := placed_names_lt _ writable 0 _ named
  simp only [Nat.zero_add] at named within
  have place : (UInt64.ofNat (NamePool.offset 1 record.name (storedNames profile))).toNat =
      NamePool.offset 1 record.name (storedNames profile) :=
    UInt64.toNat_ofNat_of_lt' (Nat.lt_trans within namesFit)
  have counters : (writtenDump deflate version compress profile).counters =
      seen ++ (record.counters ++ others) := split
  exact {
    named := by
      rw [writtenEntry, place]
      exact named
    counted := by
      rw [counters, writtenEntry, List.drop_left]
      exact List.prefix_append _ _
    inside := by
      rw [counters, writtenEntry, List.length_append]
      exact Nat.le_add_right _ _
    pointed := Nat.le_sub_one_of_lt (UInt64.toNat_lt_size _)
    fewCounters := fits.counters
    fewSites := fits.sites
    storable := fits.values }

theorem written_entries_fit
    (namesFit : (joinNames (storedNames profile)).length < UInt64.size)
    (writable : ∀ name ∈ storedNames profile, isWritableName name = true)
    (seen : List Count) (index : Nat) (records : List FunctionRecord)
    (split : profile.records.flatMap FunctionRecord.counters =
      seen ++ records.flatMap FunctionRecord.counters)
    (members : ∀ record ∈ records, record ∈ profile.records)
    (fits : ∀ record ∈ records, RecordFits record) :
    ∀ place ∈ (writtenEntries (storedNames profile) seen.length records).zipIdx index,
      (writtenDump deflate version compress profile).EntryFits
        (placedNames 0 (storedNames profile)) place.2 place.1 := by
  induction records generalizing seen index with
  | nil => exact nofun
  | cons record records ih =>
      obtain ⟨own, others⟩ := List.forall_mem_cons.mp fits
      obtain ⟨member, otherMembers⟩ := List.forall_mem_cons.mp members
      rw [List.flatMap_cons] at split
      rw [writtenEntries, List.zipIdx_cons]
      refine List.forall_mem_cons.mpr
        ⟨written_entry_fits namesFit writable seen _ index record split member own, ?_⟩
      rw [← List.append_assoc] at split
      have rest := ih (seen ++ record.counters) (index + 1) split otherMembers others
      rwa [List.length_append] at rest

theorem written_sound (data : Bytes)
    (written : writeWith deflate version compress profile = .ok data)
    (namesFit : (joinNames (storedNames profile)).length < UInt64.size)
    (fits : data.length < UInt64.size) :
    (writtenDump deflate version compress profile).Sound (placedNames 0 (storedNames profile)) := by
  obtain ⟨rfl, writable, recordsFit⟩ := dump_of_write deflate version compress profile data written
  exact {
    entries := written_entries_fit namesFit writable [] 0 profile.records rfl
      (fun _ member => member) recordsFit
    lastKind := Nat.le_refl _
    aligned := .inl (length_zeros _)
    small := fits }

theorem written_names_read (data : Bytes)
    (lossless : compress = true → ∀ payload, Zlib.inflate (deflate payload) = .complete payload)
    (written : writeWith deflate version compress profile = .ok data)
    (namesFit : (joinNames (storedNames profile)).length < UInt64.size)
    (fits : data.length < UInt64.size) :
    readNames (Cursor.ofBytes (writtenDump deflate version compress profile).names
      (writtenDump deflate version compress profile).order) =
        .ok (placedNames 0 (storedNames profile)) := by
  obtain ⟨-, writable, -⟩ := dump_of_write deflate version compress profile data written
  have small := (written_sound data written namesFit fits).small
  rw [Dump.length_bytes, Dump.length_body] at small
  have namesSmall : (encodeNames deflate compress (storedNames profile)).length < UInt64.size := by
    change (writtenDump deflate version compress profile).names.length < _
    omega
  exact names_read deflate compress _ lossless writable namesFit namesSmall

theorem written_profile : (writtenDump deflate version compress profile).profile = {
    format := .raw
    version := some version
    variant := profile.variant
    records := profile.records.map FunctionRecord.pruned
    binaryIds := if version = .v13 ∨ version = .v14 then profile.binaryIds else []
    skipped := [] } := by
  have records := written_records (storedNames profile) 0 profile.records
  have ids : version.rawLayout.hasBinaryIds = true ↔ version = .v13 ∨ version = .v14 := by
    cases version <;> decide
  have kept : ((writtenDump deflate version compress profile).entries.map fun entry =>
      entry.record.pruned) = profile.records.map FunctionRecord.pruned := by
    rw [← congrArg (List.map FunctionRecord.pruned) records, List.map_map]
    rfl
  rw [Dump.profile, kept]
  simp only [← ids]
  rfl

end Written

theorem raw_round_trip (deflate : Bytes → Bytes) (version : Version) (compress : Bool)
    (profile : Profile) (data : Bytes)
    (lossless : compress = true → ∀ payload, Zlib.inflate (deflate payload) = .complete payload)
    (written : writeWith deflate version compress profile = .ok data)
    (namesFit : (joinNames (storedNames profile)).length < UInt64.size)
    (fits : data.length < UInt64.size) :
    parse .strict data = .ok {
      format := .raw
      version := some version
      variant := profile.variant
      records := profile.records.map FunctionRecord.pruned
      binaryIds := if version = .v13 ∨ version = .v14 then profile.binaryIds else []
      skipped := [] } := by
  obtain ⟨shape, -⟩ := dump_of_write deflate version compress profile data written
  have sound := written_sound data written namesFit fits
  have namesRead := written_names_read data lossless written namesFit fits
  rw [shape, ← written_profile]
  exact Dump.sound_read (placed_names_ascending _ _) sound namesRead

def sharedName : Profile where
  format := .raw
  version := some .v14
  variant := ⟨true, false, true⟩
  records := [⟨"f", 7, [3, 0], some ⟨[[⟨5, 2⟩]], [[]]⟩⟩, ⟨"g", 7, [], some ⟨[], []⟩⟩,
    ⟨"f", 9, [1], none⟩]
  binaryIds := [[1, 2, 3]]
  skipped := []

theorem write_shared_name : ∃ data : Bytes,
    writeWith Zlib.deflate .v14 true sharedName = .ok data ∧ data.length = 344 := by
  apply (to_option_map_some_iff _ List.length _).mp
  decide +kernel

theorem raw_round_trip_shared_name : ∃ data : Bytes,
    writeWith Zlib.deflate .v14 true sharedName = .ok data ∧
      (joinNames (storedNames sharedName)).length < UInt64.size ∧ data.length < UInt64.size ∧
        parse .strict data = .ok { sharedName with
          records := sharedName.records.map FunctionRecord.pruned } := by
  obtain ⟨data, written, length⟩ := write_shared_name
  have namesFit : (joinNames (storedNames sharedName)).length < UInt64.size := by decide +kernel
  have fits : data.length < UInt64.size := by
    rw [length]
    decide
  exact ⟨data, written, namesFit, fits, raw_round_trip Zlib.deflate .v14 true sharedName data
    (fun _ => Zlib.inflate_deflate) written namesFit fits⟩

end ExecCounts.Raw
