import ExecCounts.Proofs.Damaged
import ExecCounts.Proofs.Policy
import ExecCounts.Proofs.Raw.RoundTrip

set_option autoImplicit false

namespace ExecCounts.Raw

namespace DataRecord

def readFields (pointer : Width) : Read DataRecord := do
  let nameRef ← Read.u64
  let hash ← Read.u64
  let counterPointer ← Read.uint pointer
  let _ ← Read.uint pointer
  let _ ← Read.uint pointer
  let counterCount ← Read.u32
  return { nameRef, hash, counterPointer, counterCount, callSites := 0, memOpSites := 0 }

def readSites (record : DataRecord) : Read DataRecord := do
  let callSites ← Read.u16
  let memOpSites ← Read.u16
  Read.align 8
  return { record with callSites, memOpSites }

theorem read_eq (pointer : Width) : DataRecord.read pointer = readFields pointer >>= readSites := by
  simp only [DataRecord.read, readFields, readSites, bind_assoc, pure_bind]

def fieldsSize (pointer : Width) : Nat := 8 + 8 + 3 * pointer.size + 4

theorem read_fields_takes (pointer : Width) (order : ByteOrder) :
    Read.Takes (readFields pointer) order (fieldsSize pointer) := by
  have takes : Read.Takes (readFields pointer) order
      (8 + (8 + (pointer.size + (pointer.size + (pointer.size + 4))))) := by
    refine Read.bind_takes Read.u64_takes fun nameRef => ?_
    refine Read.bind_takes Read.u64_takes fun hash => ?_
    refine Read.bind_takes (Read.uint_takes pointer) fun counterPointer => ?_
    refine Read.bind_takes (Read.uint_takes pointer) fun _ => ?_
    refine Read.bind_takes (Read.uint_takes pointer) fun _ => ?_
    exact Read.bind_takes_last Read.u32_takes fun counterCount => Read.pure_takes _
  have size : fieldsSize pointer = 8 + (8 + (pointer.size + (pointer.size + (pointer.size + 4)))) := by
    rw [fieldsSize]
    omega
  rwa [size]

theorem read_sites_yields {order : ByteOrder} (record : DataRecord) (callSites memOpSites start : Nat)
    (padding rest : Bytes) (padded : padding.length = Read.padding (start + 4) 8) :
    Read.Yields (readSites record) order start
      (order.write 2 callSites ++ (order.write 2 memOpSites ++ padding)) rest
      { record with
        callSites := UInt16.ofNat callSites, memOpSites := UInt16.ofNat memOpSites } := by
  apply Read.bind_yields (Read.u16_yields callSites)
  apply Read.bind_yields (Read.u16_yields memOpSites)
  apply Read.bind_yields_last (Read.align_yields _)
  · exact Read.pure_yields _
  · rw [length_write, length_write, Nat.add_assoc]
    exact padded

end DataRecord

namespace Dump

variable {dump : Dump} {names : List NameEntry} {index : Nat} {entry : DumpEntry}

theorem record_bytes_split (dump : Dump) (index : Nat) (entry : DumpEntry) : ∃ fields padding : Bytes,
    fields.length = DataRecord.fieldsSize dump.machine.pointer ∧
      (∀ start, start % 8 = 0 → padding.length = Read.padding (start + fields.length + 4) 8) ∧
      dump.recordBytes index entry = fields ++
        (dump.order.write 2 (entry.record.siteCount .indirectCallTarget) ++
          (dump.order.write 2 (entry.record.siteCount .memOpSize) ++ padding)) := by
  rw [recordBytes, pad_to_eq, length_field_bytes]
  simp only [fieldBytes, ← List.append_assoc]
  refine ⟨_, _, ?_, ?_, rfl⟩
  · simp only [List.length_append, length_write, DataRecord.fieldsSize, pointerSize]
    omega
  · intro start aligned
    simp only [List.length_append, length_write, length_zeros, Read.padding, pointerSize]
    omega

def damaged (dump : Dump) (index : Nat) (entry : DumpEntry) (patch : Bytes) (record : DataRecord) :
    StoredRecord :=
  { dump.stored index entry with
    bytes := Bytes.overwrite (dump.recordBytes index entry) 0 patch, record }

theorem damaged_reads (fits : dump.EntryFits names index entry) (patch : Bytes)
    (length : patch.length = DataRecord.fieldsSize dump.machine.pointer) :
    ∃ record : DataRecord, (dump.damaged index entry patch record).Reads dump.machine := by
  obtain ⟨fields, padding, fieldsLength, padded, shape⟩ := record_bytes_split dump index entry
  obtain ⟨found, yields⟩ := DataRecord.read_fields_takes dump.machine.pointer dump.order patch length
  have inside : 0 + patch.length ≤ (dump.recordBytes index entry).length := by
    rw [shape, List.length_append, length, fieldsLength]
    omega
  have split : Bytes.overwrite (dump.recordBytes index entry) 0 patch = patch ++
      (dump.order.write 2 (entry.record.siteCount .indirectCallTarget) ++
        (dump.order.write 2 (entry.record.siteCount .memOpSize) ++ padding)) := by
    rw [Bytes.overwrite, shape, List.take_zero, List.nil_append, Nat.zero_add, length,
      ← fieldsLength, List.drop_left]
  refine ⟨{ found with
    callSites := UInt16.ofNat (entry.record.siteCount .indirectCallTarget)
    memOpSites := UInt16.ofNat (entry.record.siteCount .memOpSize) }, ?_, ?_, ?_⟩
  · exact (Bytes.length_overwrite inside).trans (dump.length_record_bytes index entry)
  · intro start rest aligned
    rw [damaged, DataRecord.read_eq, split]
    apply Read.bind_yields (yields start _)
    apply DataRecord.read_sites_yields
    rw [length, ← fieldsLength]
    exact padded start aligned
  -- The numbers of value sites are still there, so that the same blob follows.
  · exact dump.next_blob_yields index entry fits

theorem bytes_with_overwrite (dump : Dump) (start : Nat) (patch : Bytes)
    (inside : start + patch.length ≤ dump.recordsBytes.length) :
    dump.bytes.overwrite (16 + dump.headerBytes.length + dump.idBytes.length + start) patch =
      dump.bytesWith (Bytes.overwrite dump.recordsBytes start patch) := by
  have front : dump.bytes = (dump.machine.magicBytes ++ (dump.order.write 8
      (dump.variant.word (UInt64.ofNat dump.version.tag)).toNat ++ (dump.headerBytes ++ dump.idBytes))) ++
        (dump.recordsBytes ++ (dump.paddingBefore ++ (dump.countBytes dump.counters ++
          (dump.paddingAfter ++ (dump.names ++ (dump.alignment ++ dump.blobs)))))) := by
    simp only [bytes, body, List.append_assoc]
  have length : 16 + dump.headerBytes.length + dump.idBytes.length = (dump.machine.magicBytes ++
      (dump.order.write 8 (dump.variant.word (UInt64.ofNat dump.version.tag)).toNat ++
        (dump.headerBytes ++ dump.idBytes))).length := by
    simp only [List.length_append, length_magic_bytes, length_write]
    omega
  rw [front, length, Bytes.overwrite_append_right, Bytes.overwrite_append_left inside, bytesWith,
    bodyWith]
  simp only [List.append_assoc]

theorem all_stored_get (index : Nat) (known : index < dump.entries.length) :
    dump.allStored[index]? = some (dump.stored index dump.entries[index]) := by
  simp only [allStored, List.getElem?_map, List.getElem?_zipIdx, List.getElem?_eq_getElem known,
    Option.map_some, Nat.zero_add]

theorem parse_replaced (sound : dump.Sound names) (ascending : names.Pairwise (·.offset < ·.offset))
    (namesRead : readNames (Cursor.ofBytes dump.names dump.order) = .ok names) (index : Nat)
    (known : index < dump.entries.length) (other : StoredRecord) (reads : other.Reads dump.machine)
    (sameBlob : other.blobBytes = dump.blobBytes dump.entries[index]) : ∃ left skipped,
      parse .bestEffort
        (dump.bytesWith ((dump.allStored.set index other).flatMap StoredRecord.bytes)) =
          .ok { dump.profile with records := left, skipped } ∧
        SparedBut index dump.profile.records left skipped := by
  have allReads : ∀ stored ∈ dump.allStored.set index other, stored.Reads dump.machine := by
    intro stored member
    obtain listed | rfl := List.mem_or_eq_of_mem_set member
    · exact all_stored_reads sound stored listed
    · exact reads
  have count : (dump.allStored.set index other).length = dump.entries.length := by
    rw [List.length_set, length_all_stored]
  have blobs : (dump.allStored.set index other).flatMap StoredRecord.blobBytes = dump.blobs := by
    have own := List.getElem?_map.trans
      (congrArg (Option.map StoredRecord.blobBytes) (all_stored_get index known))
    obtain ⟨bound, same⟩ := List.getElem?_eq_some_iff.mp own
    rw [← all_stored_blobs, List.flatMap_def, List.flatMap_def, List.map_set, sameBlob]
    exact congrArg List.flatten ((congrArg _ same.symm).trans (List.set_getElem_self bound))
  have read := parse_stored sound .bestEffort namesRead _ allReads count blobs
  have entries := congrArg Transcript.entries (all_stored_entries sound ascending)
  have recordCount : index < (dump.entries.map fun entry => entry.record.pruned).length := by
    rwa [List.length_map]
  obtain ⟨left, skipped, settled, spared⟩ := Transcript.settle_set _ index recordCount
    ((dump.contents names (Cursor.ofBytes dump.blobs dump.order)).entry index other) ()
  refine ⟨left, skipped, ?_, spared⟩
  rw [transcriptOf] at entries
  dsimp only at entries
  rw [read, transcriptOf, List.mapIdx_set, entries, settled]
  rfl

theorem damaged_read (sound : dump.Sound names) (ascending : names.Pairwise (·.offset < ·.offset))
    (namesRead : readNames (Cursor.ofBytes dump.names dump.order) = .ok names) (index : Nat)
    (known : index < dump.entries.length) (patch : Bytes)
    (length : patch.length = DataRecord.fieldsSize dump.machine.pointer) :
    ∃ left skipped, parse .bestEffort (dump.bytes.overwrite
        (16 + dump.headerBytes.length + dump.idBytes.length + index * dump.machine.recordSize) patch) =
        .ok { dump.profile with records := left, skipped } ∧
      SparedBut index dump.profile.records left skipped := by
  have place : (dump.entries[index], index) ∈ dump.entries.zipIdx :=
    List.mem_zipIdx_iff_getElem?.mpr (List.getElem?_eq_getElem known)
  -- Whatever the bytes are, they are the fields of some record, and the same blob follows it.
  obtain ⟨record, reads⟩ := damaged_reads (sound.entries _ place) patch length
  have within : 0 + patch.length ≤ (dump.recordBytes index dump.entries[index]).length := by
    rw [length_record_bytes, Machine.recordSize, length, DataRecord.fieldsSize, Nat.zero_add]
    exact Nat.le_trans (Nat.le_add_right _ 4) (le_align_up_eight _)
  have records := Bytes.flat_map_overwrite StoredRecord.bytes dump.machine.recordSize dump.allStored
    (fun stored member => (all_stored_reads sound stored member).length) index _
    (dump.damaged index dump.entries[index] patch record) (all_stored_get index known) 0 patch within
    rfl
  rw [all_stored_bytes, Nat.add_zero] at records
  rw [bytes_with_overwrite, records]
  · exact parse_replaced sound ascending namesRead index known _ reads rfl
  · have rows := Nat.mul_le_mul_right dump.machine.recordSize known
    rw [length_record_bytes] at within
    rw [recordsBytes, length_records_from]
    rw [Nat.succ_mul] at rows
    omega

end Dump

def recordStart (version : Version) (profile : Profile) (index : Nat) : Nat :=
  let layout := version.rawLayout
  let binaryIds := if layout.hasBinaryIds then encodeBinaryIds profile.binaryIds else []
  layout.headerSize + binaryIds.length + index * writtenMachine.recordSize

theorem written_damaged_read (deflate : Bytes → Bytes) (version : Version) (compress : Bool)
    (profile : Profile) (data : Bytes)
    (lossless : compress = true → ∀ payload, Zlib.inflate (deflate payload) = .complete payload)
    (written : writeWith deflate version compress profile = .ok data)
    (namesFit : (joinNames (storedNames profile)).length < UInt64.size)
    (fits : data.length < UInt64.size) (index : Nat) (known : index < profile.records.length)
    (patch : Bytes) (length : patch.length = DataRecord.fieldsSize writtenMachine.pointer) :
    ∃ whole left skipped, parse .bestEffort data = .ok whole ∧
      whole.records = profile.records.map FunctionRecord.pruned ∧
      parse .bestEffort (data.overwrite (recordStart version profile index) patch) =
        .ok { whole with records := left, skipped } ∧
      SparedBut index whole.records left skipped := by
  obtain ⟨shape, -⟩ := dump_of_write deflate version compress profile data written
  have sound := written_sound data written namesFit fits
  have namesRead := written_names_read data lossless written namesFit fits
  have ascending := placed_names_ascending 0 (storedNames profile)
  have count : index < (writtenDump deflate version compress profile).entries.length :=
    known.trans_eq (length_written_entries (storedNames profile) 0 profile.records).symm
  have start : 16 + (writtenDump deflate version compress profile).headerBytes.length +
      (writtenDump deflate version compress profile).idBytes.length +
        index * (writtenDump deflate version compress profile).machine.recordSize =
          recordStart version profile index := by
    rw [recordStart, written_ids deflate version compress profile, Dump.length_header_bytes]
    rfl
  obtain ⟨left, skipped, read, spared⟩ :=
    Dump.damaged_read sound ascending namesRead index count patch length
  rw [start, ← shape] at read
  refine ⟨_, left, skipped, ?_, congrArg Profile.records written_profile, read, spared⟩
  rw [shape]
  exact Dump.sound_read ascending sound namesRead

end ExecCounts.Raw
