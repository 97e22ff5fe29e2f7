import ExecCounts.Proofs.Raw.Names
import ExecCounts.Proofs.Raw.Opening
import ExecCounts.Raw.Writer

set_option autoImplicit false

namespace ExecCounts.Raw

structure RecordFits (record : FunctionRecord) : Prop where
  sites : ∀ kind, record.siteCount kind < UInt16.size
  counters : record.counters.length < UInt32.size
  values : ∀ values ∈ record.pruned.values, Blob.Storable values

theorem encode_site_count_ok (values : ValueProfile) (kind : ValueKind) (bytes : Bytes)
    (encoded : encodeSiteCount values kind = .ok bytes) :
    bytes = le16 (values.sites kind).length ∧ (values.sites kind).length < UInt16.size := by
  rw [encodeSiteCount] at encoded
  by_cases small : (values.sites kind).length < UInt16.size
  · rw [if_pos small] at encoded
    exact ⟨(Except.ok.inj encoded).symm, small⟩
  · rw [if_neg small] at encoded
    cases encoded

theorem encode_values_ok (record : FunctionRecord) (counts blob : Bytes)
    (encoded : encodeValues record.values = .ok (counts, blob)) :
    counts = le16 (record.siteCount .indirectCallTarget) ++ le16 (record.siteCount .memOpSize) ∧
      blob = (record.pruned.values.map (Blob.blobBytes .little)).getD [] ∧
        (∀ kind, record.siteCount kind < UInt16.size) ∧
          ∀ values ∈ record.pruned.values, Blob.Storable values := by
  cases stored : record.values with
  | none =>
      rw [stored, encodeValues] at encoded
      cases encoded
      simp [FunctionRecord.siteCount, FunctionRecord.pruned, stored]
  | some values =>
      rw [stored, encodeValues, bind_ok_iff] at encoded
      obtain ⟨parts, partsOk, encoded⟩ := encoded
      obtain ⟨rfl, small⟩ := map_m_ok_of (encode_site_count_ok values) partsOk
      have count : ∀ kind, record.siteCount kind = (values.sites kind).length :=
        fun kind => by rw [FunctionRecord.siteCount, stored]
      have sites : ∀ kind, record.siteCount kind < UInt16.size := by
        intro kind
        rw [count]
        exact small kind (by cases kind <;> decide)
      have shape : (ValueKind.all.map fun kind => le16 (values.sites kind).length).flatten =
          le16 (record.siteCount .indirectCallTarget) ++ le16 (record.siteCount .memOpSize) := by
        simp [ValueKind.all, count]
      rw [FunctionRecord.pruned, stored, Option.filter_some]
      by_cases empty : values.isEmpty
      · rw [if_pos empty] at encoded
        cases encoded
        rw [empty]
        refine ⟨shape, rfl, sites, fun kept same => ?_⟩
        cases same
      · rw [if_neg empty, bind_ok_iff] at encoded
        obtain ⟨found, foundOk, encoded⟩ := encoded
        cases encoded
        obtain ⟨storable, rfl⟩ := Blob.encode_ok values _ foundOk
        rw [Bool.not_eq_true] at empty
        rw [empty]
        refine ⟨shape, rfl, sites, fun kept same => ?_⟩
        cases same
        exact storable

section Entries

variable (names : List String)

def writtenEntry (before : Nat) (record : FunctionRecord) : DumpEntry where
  record := record
  nameRef := UInt64.ofNat (NamePool.offset 1 record.name names)
  slot := before
  functionPointer := 0
  valuesPointer := 0

def writtenEntries : Nat → List FunctionRecord → List DumpEntry
  | _, [] => []
  | before, record :: rest =>
      writtenEntry names before record :: writtenEntries (before + record.counters.length) rest

theorem written_records (before : Nat) (records : List FunctionRecord) :
    (writtenEntries names before records).map DumpEntry.record = records := by
  induction records generalizing before with
  | nil => rfl
  | cons record rest ih => rw [writtenEntries, List.map_cons, ih, writtenEntry]

theorem length_written_entries (before : Nat) (records : List FunctionRecord) :
    (writtenEntries names before records).length = records.length := by
  rw [← List.length_map DumpEntry.record, written_records]

end Entries

section Dump

variable (deflate : Bytes → Bytes) (version : Version) (compress : Bool) (profile : Profile)

def writtenUnpadded : Dump where
  machine := writtenMachine
  version := version
  variant := profile.variant
  ids := profile.binaryIds
  entries := writtenEntries (storedNames profile) 0 profile.records
  paddingBefore := []
  counters := profile.records.flatMap FunctionRecord.counters
  paddingAfter := []
  names := encodeNames deflate compress (storedNames profile)
  countersDelta := UInt64.ofNat (countersDelta version.rawLayout profile.records.length)
  namesDelta := UInt64.ofNat namesAddress
  lastKind := lastValueKind
  alignment := []

def writtenDump : Dump :=
  { writtenUnpadded deflate version compress profile with
    alignment := Bytes.zeros
      ((8 - (writtenUnpadded deflate version compress profile).body.length % 8) % 8) }

theorem written_counter_pointer (index before : Nat) (record : FunctionRecord)
    (known : index < profile.records.length) :
    (writtenDump deflate version compress profile).counterPointer index
      (writtenEntry (storedNames profile) before record) =
        UInt64.ofNat (counterPointer version.rawLayout
          (countersDelta version.rawLayout profile.records.length) index before) := by
  have inside : index * writtenMachine.recordSize ≤
      profile.records.length * writtenMachine.recordSize :=
    Nat.mul_le_mul_right _ (Nat.le_of_lt known)
  have layout : (writtenDump deflate version compress profile).version.rawLayout =
      version.rawLayout := rfl
  have machine : (writtenDump deflate version compress profile).machine = writtenMachine := rfl
  have delta : (writtenDump deflate version compress profile).countersDelta =
      UInt64.ofNat (countersDelta version.rawLayout profile.records.length) := rfl
  have slot : (writtenEntry (storedNames profile) before record).slot = before := rfl
  rw [Dump.counterPointer, layout, machine, delta, slot, counterPointer, countersDelta]
  by_cases relative : version.rawLayout.relativeCounters
  · rw [if_pos relative, if_pos relative, if_pos relative, ← UInt64.ofNat_add,
      ← UInt64.ofNat_sub (by omega)]
  · rw [if_neg relative, if_neg relative, if_neg relative, ← UInt64.ofNat_add]

theorem encode_record_ok (index before : Nat) (record : FunctionRecord) (data blob : Bytes)
    (known : index < profile.records.length)
    (encoded : encodeRecord version.rawLayout (storedNames profile)
      (countersDelta version.rawLayout profile.records.length) index before record =
        .ok (data, blob)) :
    data = (writtenDump deflate version compress profile).recordBytes index
      (writtenEntry (storedNames profile) before record) ∧
    blob = (writtenDump deflate version compress profile).blobBytes
      (writtenEntry (storedNames profile) before record) ∧ RecordFits record := by
  rw [encodeRecord, bind_ok_iff] at encoded
  obtain ⟨⟨counts, found⟩, valuesOk, encoded⟩ := encoded
  obtain ⟨rfl, rfl, sites, storable⟩ := encode_values_ok record counts found valuesOk
  dsimp only at encoded
  by_cases many : UInt32.size ≤ record.counters.length
  · simp only [if_pos many, bind_ok_iff, throw_ok_iff, false_and, exists_false] at encoded
  · rw [if_neg many] at encoded
    cases encoded
    refine ⟨?_, rfl, sites, Nat.lt_of_not_le many, storable⟩
    have order : (writtenDump deflate version compress profile).order = .little := rfl
    have size : (writtenDump deflate version compress profile).pointerSize = 8 := rfl
    have unpadded : 8 - (8 + 8 + 3 * 8 + 4 + 4) % 8 = 8 := rfl
    rw [Dump.recordBytes, pad_to_eq, Dump.length_field_bytes, size, unpadded, Dump.fieldBytes, order,
      size, written_counter_pointer _ _ _ _ index before record known]
    simp only [writtenEntry, write_word, le64, le32, le16, List.append_assoc, Nat.mod_self,
      Bytes.zeros, List.replicate_zero, List.append_nil]

theorem encode_records_ok (index before : Nat) (records : List FunctionRecord) (data blobs : Bytes)
    (known : index + records.length ≤ profile.records.length)
    (encoded : encodeRecords version.rawLayout (storedNames profile)
      (countersDelta version.rawLayout profile.records.length) index before records =
        .ok (data, blobs)) :
    data = (writtenDump deflate version compress profile).recordsFrom index
      (writtenEntries (storedNames profile) before records) ∧
    blobs = (writtenEntries (storedNames profile) before records).flatMap
      (writtenDump deflate version compress profile).blobBytes ∧
    ∀ record ∈ records, RecordFits record := by
  induction records generalizing index before data blobs with
  | nil =>
      cases encoded
      exact ⟨rfl, rfl, nofun⟩
  | cons record records ih =>
      simp only [encodeRecords, bind_ok_iff, map_error_ok_iff] at encoded
      obtain ⟨⟨first, blob⟩, firstOk, ⟨others, otherBlobs⟩, othersOk, same⟩ := encoded
      cases same
      rw [List.length_cons] at known
      obtain ⟨rfl, rfl, fits⟩ := encode_record_ok deflate version compress profile index before record
        first blob (by omega) firstOk
      obtain ⟨rfl, rfl, othersFit⟩ := ih (index + 1) _ others otherBlobs (by omega) othersOk
      exact ⟨rfl, rfl, List.forall_mem_cons.mpr ⟨fits, othersFit⟩⟩

def writtenSizes : Sizes where
  binaryIds := (writtenDump deflate version compress profile).idBytes.length
  records := profile.records.length
  counters := (profile.records.flatMap FunctionRecord.counters).length
  names := (encodeNames deflate compress (storedNames profile)).length

theorem written_header :
    (version.rawLayout.header.flatMap fun field =>
      le64 (fieldValue version.rawLayout (writtenSizes deflate version compress profile) field)) =
        (writtenDump deflate version compress profile).headerBytes := by
  have count := length_written_entries (storedNames profile) 0 profile.records
  refine List.flatMap_congr fun field _ => ?_
  cases field with
  | dataSize => exact congrArg le64 count.symm
  | countersDelta | namesDelta => exact (write_word _ _).symm
  | binaryIdsSize | paddingBytesBeforeCounters | countersSize | paddingBytesAfterCounters
  | namesSize | valueKindLast => rfl

theorem written_ids :
    (if version.rawLayout.hasBinaryIds then encodeBinaryIds profile.binaryIds else []) =
      (writtenDump deflate version compress profile).idBytes := by
  by_cases has : version.rawLayout.hasBinaryIds
  · rw [if_pos has, Dump.idBytes, Dump.storedIds, writtenDump, writtenUnpadded, if_pos has]
    rfl
  · rw [if_neg has, Dump.idBytes, Dump.storedIds, writtenDump, writtenUnpadded, if_neg has]
    rfl

theorem written_body :
    writtenMachine.magicBytes ++ le64 (profile.variant.word (UInt64.ofNat version.tag)).toNat ++
      (writtenDump deflate version compress profile).headerBytes ++
        (writtenDump deflate version compress profile).idBytes ++
          (writtenDump deflate version compress profile).recordsBytes ++
            (profile.records.flatMap FunctionRecord.counters).flatMap
              (fun count => le64 count.toNat) ++
                encodeNames deflate compress (storedNames profile) =
      (writtenDump deflate version compress profile).body := by
  simp only [Dump.body, List.append_assoc]
  rfl

theorem written_bytes :
    (writtenDump deflate version compress profile).body.padTo 8 ++
      (writtenDump deflate version compress profile).blobs =
        (writtenDump deflate version compress profile).bytes := by
  rw [pad_to_eq, Dump.bytes, List.append_assoc]
  rfl

theorem dump_of_write (data : Bytes)
    (written : writeWith deflate version compress profile = .ok data) :
    data = (writtenDump deflate version compress profile).bytes ∧
      (∀ name ∈ storedNames profile, isWritableName name = true) ∧
        ∀ record ∈ profile.records, RecordFits record := by
  rw [writeWith] at written
  cases unfit : profile.records.find? fun record => !isWritableName record.name with
  | some record =>
      simp only [unfit, throw_ok_iff, bind_ok_iff, false_and, exists_false] at written
  | none =>
      simp only [unfit, bind_ok_iff, pure_ok_iff] at written
      obtain ⟨⟨records, blobs⟩, encoded, rfl⟩ := written
      obtain ⟨rfl, rfl, fits⟩ := encode_records_ok deflate version compress profile 0 0 _ records
        blobs (by omega) encoded
      refine ⟨?_, ?_, fits⟩
      · have header := written_header deflate version compress profile
        rw [writtenSizes] at header
        rw [written_ids deflate version compress profile, header]
        exact (congrArg (fun body => Bytes.padTo 8 body ++ _) (written_body _ _ _ _)).trans
          (written_bytes _ _ _ _)
      · intro name listed
        obtain ⟨record, member, rfl⟩ := List.mem_map.mp ((NamePool.mem_distinct _ _).mp listed)
        have passed := List.find?_eq_none.mp unfit record member
        simpa using passed

end Dump

end ExecCounts.Raw
