import ExecCounts.Proofs.Cut
import ExecCounts.Proofs.Parts
import ExecCounts.Proofs.Record
import ExecCounts.Proofs.Value.Blob
import ExecCounts.Proofs.Version
import ExecCounts.Raw.Reader

set_option autoImplicit false

namespace ExecCounts.Raw

structure DumpEntry where
  record : FunctionRecord
  nameRef : UInt64
  -- The number of counters in front of the record's own.
  slot : Nat
  -- Where the function and its values were in memory, which readers ignore.
  functionPointer : Nat
  valuesPointer : Nat
deriving DecidableEq, Repr

/-- A raw profile as any machine may leave it. The counters of a record may lie anywhere in the
counter section, also in those of other records, and there may be padding on both sides of the
section. -/
structure Dump where
  machine : Machine
  version : Version
  variant : Variant
  ids : List Bytes
  entries : List DumpEntry
  paddingBefore : Bytes
  -- All counters of the counter section.
  counters : List Count
  paddingAfter : Bytes
  names : Bytes
  countersDelta : UInt64
  namesDelta : UInt64
  lastKind : Nat
  -- What separates the names from the blobs.
  alignment : Bytes
deriving DecidableEq, Repr

def binaryIdBytes (order : ByteOrder) (id : Bytes) : Bytes :=
  Bytes.padTo 8 (order.write 8 id.length ++ id)

namespace Dump

section Layout

variable (dump : Dump)

abbrev order : ByteOrder := dump.machine.order

abbrev pointerSize : Nat := dump.machine.pointer.size

def storedIds : List Bytes := if dump.version.rawLayout.hasBinaryIds then dump.ids else []

def idBytes : Bytes := dump.storedIds.flatMap (binaryIdBytes dump.order)

def counterPointer (index : Nat) (entry : DumpEntry) : UInt64 :=
  let pointer := dump.countersDelta + UInt64.ofNat (8 * entry.slot)
  if dump.version.rawLayout.relativeCounters then
    pointer - UInt64.ofNat (index * dump.machine.recordSize)
  else pointer

def fieldBytes (index : Nat) (entry : DumpEntry) : Bytes :=
  dump.order.write 8 entry.nameRef.toNat ++ (dump.order.write 8 entry.record.hash.toNat ++
    (dump.order.write dump.pointerSize (dump.counterPointer index entry).toNat ++
      (dump.order.write dump.pointerSize entry.functionPointer ++
        (dump.order.write dump.pointerSize entry.valuesPointer ++
          (dump.order.write 4 entry.record.counters.length ++
            (dump.order.write 2 (entry.record.siteCount .indirectCallTarget) ++
              dump.order.write 2 (entry.record.siteCount .memOpSize)))))))

def recordBytes (index : Nat) (entry : DumpEntry) : Bytes :=
  Bytes.padTo 8 (dump.fieldBytes index entry)

def recordsFrom (index : Nat) (entries : List DumpEntry) : Bytes :=
  (entries.zipIdx index).flatMap fun (entry, index) => dump.recordBytes index entry

def recordsBytes : Bytes := dump.recordsFrom 0 dump.entries

def countBytes (counts : List Count) : Bytes := counts.flatMap fun count => dump.order.write 8 count.toNat

def blobBytes (entry : DumpEntry) : Bytes :=
  (entry.record.pruned.values.map (Blob.blobBytes dump.order)).getD []

def blobs : Bytes := dump.entries.flatMap dump.blobBytes

def fieldValue : RawField → Nat
  | .binaryIdsSize => dump.idBytes.length
  | .dataSize => dump.entries.length
  | .paddingBytesBeforeCounters => dump.paddingBefore.length
  | .countersSize => dump.counters.length
  | .paddingBytesAfterCounters => dump.paddingAfter.length
  | .namesSize => dump.names.length
  | .countersDelta => dump.countersDelta.toNat
  | .namesDelta => dump.namesDelta.toNat
  | .valueKindLast => dump.lastKind

def headerBytes : Bytes :=
  dump.version.rawLayout.header.flatMap fun field => dump.order.write 8 (dump.fieldValue field)

def body : Bytes :=
  dump.machine.magicBytes ++
    (dump.order.write 8 (dump.variant.word (UInt64.ofNat dump.version.tag)).toNat ++ (dump.headerBytes ++
      (dump.idBytes ++ (dump.recordsBytes ++ (dump.paddingBefore ++ (dump.countBytes dump.counters ++
        (dump.paddingAfter ++ dump.names)))))))

def bytes : Bytes := dump.body ++ (dump.alignment ++ dump.blobs)

/-- What the file tells. A value profile without any site leaves no trace in it. -/
def profile : Profile where
  format := .raw
  version := some dump.version
  variant := dump.variant
  records := dump.entries.map fun entry => entry.record.pruned
  binaryIds := dump.storedIds
  skipped := []

structure EntryFits (names : List NameEntry) (index : Nat) (entry : DumpEntry) : Prop where
  named : ⟨entry.nameRef.toNat, entry.record.name⟩ ∈ names
  counted : entry.record.counters <+: dump.counters.drop entry.slot
  inside : entry.slot ≤ dump.counters.length
  pointed : (dump.counterPointer index entry).toNat ≤ dump.machine.pointer.limit
  fewCounters : entry.record.counters.length < UInt32.size
  fewSites : ∀ kind, entry.record.siteCount kind < UInt16.size
  storable : ∀ values ∈ entry.record.pruned.values, Blob.Storable values

/-- A file in which every record can be resolved, given what its names section contains. -/
structure Sound (names : List NameEntry) : Prop where
  entries : ∀ place ∈ dump.entries.zipIdx, dump.EntryFits names place.2 place.1
  lastKind : dump.lastKind ≤ lastValueKind
  -- Nothing needs to follow the names if there are no blobs.
  aligned : dump.alignment.length = Read.padding dump.body.length 8 ∨
    dump.alignment = [] ∧ dump.blobs = []
  small : dump.bytes.length < UInt64.size

end Layout

section Pieces

variable (dump : Dump)

theorem length_count_bytes (counts : List Count) :
    (dump.countBytes counts).length = 8 * counts.length := by
  rw [countBytes, List.length_flatMap]
  simp only [length_write, List.map_const', List.sum_replicate_nat]
  exact Nat.mul_comm _ _

theorem record_size_aligned (machine : Machine) : machine.recordSize % 8 = 0 :=
  Nat.mul_mod_left _ _

theorem record_size_pos (machine : Machine) : 0 < machine.recordSize := by
  obtain ⟨order, pointer⟩ := machine
  cases order <;> cases pointer <;> decide

theorem length_header_bytes :
    16 + dump.headerBytes.length = dump.version.rawLayout.headerSize := by
  simp only [headerBytes, List.length_flatMap, length_write, List.map_const',
    List.sum_replicate_nat, RawLayout.headerSize, Nat.mul_comm]

section Record

variable (index : Nat) (entry : DumpEntry) {names : List NameEntry}

theorem length_field_bytes : (dump.fieldBytes index entry).length =
    8 + 8 + 3 * dump.pointerSize + 4 + 4 := by
  simp only [fieldBytes, List.length_append, length_write]
  omega

theorem length_record_bytes :
    (dump.recordBytes index entry).length = dump.machine.recordSize := by
  rw [recordBytes, length_pad_to_eight, length_field_bytes, Machine.recordSize]

def dataRecord : DataRecord where
  nameRef := entry.nameRef
  hash := entry.record.hash
  counterPointer := dump.counterPointer index entry
  counterCount := UInt32.ofNat entry.record.counters.length
  callSites := UInt16.ofNat (entry.record.siteCount .indirectCallTarget)
  memOpSites := UInt16.ofNat (entry.record.siteCount .memOpSize)

theorem data_record_yields (fits : dump.EntryFits names index entry) (start : Nat) (rest : Bytes)
    (aligned : start % 8 = 0) :
    Read.Yields (DataRecord.read dump.machine.pointer) dump.order start
      (dump.recordBytes index entry) rest (dump.dataRecord index entry) := by
  rw [recordBytes, pad_to_eq, length_field_bytes]
  simp only [fieldBytes, List.append_assoc]
  apply Read.bind_yields (Read.u64_word_yields entry.nameRef)
  apply Read.bind_yields (Read.u64_word_yields entry.record.hash)
  apply Read.bind_yields (Read.uint_word_yields _ _ fits.pointed)
  apply Read.bind_yields (Read.uint_any_yields _ _)
  apply Read.bind_yields (Read.uint_any_yields _ _)
  apply Read.bind_yields (Read.u32_yields _)
  apply Read.bind_yields (Read.u16_yields _)
  apply Read.bind_yields (Read.u16_yields _)
  apply Read.bind_yields_last (Read.align_yields _)
  · exact Read.pure_yields _
  · simp only [pointerSize, length_write, length_zeros, Read.padding]
    omega

theorem data_record_site_count (fits : dump.EntryFits names index entry) (kind : ValueKind) :
    (dump.dataRecord index entry).siteCount kind = entry.record.siteCount kind := by
  have small := fits.fewSites kind
  cases kind <;> exact UInt16.toNat_ofNat_of_lt' small

theorem next_blob_yields (fits : dump.EntryFits names index entry) (start : Nat) (rest : Bytes) :
    Read.Yields (Contents.nextBlob (dump.dataRecord index entry)) dump.order start
      (dump.blobBytes entry) rest (entry.record.pruned.values.map fun values =>
        Cursor.ofBytes (Blob.blobBytes dump.order values) dump.order) := by
  have count := dump.data_record_site_count index entry fits
  have sites := entry.record.pruned_none_iff
  have storable := fits.storable
  rw [Contents.nextBlob, blobBytes]
  cases kept : entry.record.pruned.values with
  | none =>
      rw [kept] at sites
      have none : (dump.dataRecord index entry).hasSites = false := by
        simp [DataRecord.hasSites, count, sites.mp rfl]
      rw [none]
      exact Read.pure_yields _
  | some values =>
      rw [kept] at sites storable
      have some : (dump.dataRecord index entry).hasSites = true := by
        by_contra missing
        refine Option.some_ne_none values (sites.mpr fun kind => ?_)
        rw [← count kind]
        rw [DataRecord.hasSites, List.any_eq_true] at missing
        by_contra present
        exact missing ⟨kind, by cases kind <;> decide, by simpa using present⟩
      rw [some]
      exact Read.map_yields _ (Blob.frame_yields _ values (storable values rfl))

end Record

theorem records_from_cons (index : Nat) (entry : DumpEntry) (entries : List DumpEntry) :
    dump.recordsFrom index (entry :: entries) =
      dump.recordBytes index entry ++ dump.recordsFrom (index + 1) entries :=
  rfl

theorem length_records_from (index : Nat) (entries : List DumpEntry) :
    (dump.recordsFrom index entries).length = entries.length * dump.machine.recordSize := by
  induction entries generalizing index with
  | nil => exact (Nat.zero_mul _).symm
  | cons entry entries ih =>
      rw [records_from_cons, List.length_append, length_record_bytes, ih, List.length_cons,
        Nat.succ_mul, Nat.add_comm]

end Pieces

end Dump

theorem read_header_yields (order : ByteOrder) (number : RawField → Nat) (fields : List RawField)
    (start : Nat) (rest : Bytes) :
    Read.Yields (readHeader fields) order start
      (fields.flatMap fun field => order.write 8 (number field)) rest
      (fields.map fun field => (field, UInt64.ofNat (number field))) := by
  induction fields generalizing start with
  | nil => exact Read.pure_yields []
  | cons field fields ih =>
      rw [List.flatMap_cons]
      apply Read.bind_yields (Read.u64_yields _)
      exact Read.bind_yields_last (ih _) (Read.pure_yields _)

theorem header_value (number : RawField → Nat) (fields : List RawField) (field : RawField)
    (small : number field < UInt64.size) :
    Header.value (fields.map fun field => (field, UInt64.ofNat (number field))) field =
      if field ∈ fields then number field else 0 := by
  have found := lookup_fields number fields field small
  rw [Header.value]
  by_cases listed : field ∈ fields
  · rw [if_pos listed] at found ⊢
    obtain ⟨word, present, same⟩ := Option.map_eq_some_iff.mp found
    rw [present, Option.getD_some, same]
  · rw [if_neg listed] at found ⊢
    rw [Option.map_eq_none_iff.mp found]
    rfl

theorem subsection_yields {order : ByteOrder} {n start : Nat} {bytes rest : Bytes}
    (length : bytes.length = n) :
    Read.Yields (subsection n) order start bytes rest (Cursor.ofBytes bytes order) := by
  apply Read.get_yields
  intro cursor ordered _ _
  rw [ordered]
  exact Read.bind_yields_last (Read.bytes_yields_of_length length) (Read.pure_yields _)

theorem subsection_survives {missing : Bytes} (n : Nat) :
    Read.Survives Read.isTruncation missing (subsection n) := by
  refine Read.bind_degrades Read.get_degrades fun cursor short shortened => ?_
  rw [← shortened.order]
  exact Read.bind_survives (Read.bytes_survives Read.truncated n) fun _ => Read.pure_degrades rfl

theorem read_header_survives {missing : Bytes} (fields : List RawField) :
    Read.Survives Read.isTruncation missing (readHeader fields) := by
  induction fields with
  | nil => exact Read.pure_degrades rfl
  | cons field fields ih =>
      refine Read.bind_survives (Read.u64_survives Read.truncated) fun _ => ?_
      exact Read.bind_survives ih fun _ => Read.pure_degrades rfl

theorem section_size_yields {order : ByteOrder} {count itemSize start : Nat} {rest : Bytes}
    (small : count * itemSize < UInt64.size) :
    Read.Yields (sectionSize count itemSize) order start [] rest (count * itemSize) := by
  rw [sectionSize, if_neg (Nat.not_le.mpr small)]
  exact Read.pure_yields _

section BinaryIds

variable (order : ByteOrder) (ids : List Bytes)

theorem length_le_binary_id_bytes (id : Bytes) : 8 + id.length ≤ (binaryIdBytes order id).length := by
  rw [binaryIdBytes, Bytes.padTo, List.length_append, List.length_append, length_write]
  omega

theorem length_le_binary_ids : ids.length ≤ (ids.flatMap (binaryIdBytes order)).length := by
  apply length_flat_map_le
  intro id _
  have bound := length_le_binary_id_bytes order id
  omega

theorem binary_ids_yields (small : ∀ id ∈ ids, id.length < UInt64.size)
    (fuel start : Nat) (enough : ids.length ≤ fuel) (aligned : start % 8 = 0) :
    Read.Yields (binaryIds fuel) order start (ids.flatMap (binaryIdBytes order)) [] ids := by
  induction ids generalizing fuel start with
  | nil =>
      cases fuel with
      | zero => exact Read.pure_yields []
      | succ fuel => exact Read.bind_yields_nil Read.at_end_yields (Read.pure_yields [])
  | cons id ids ih =>
      cases fuel with
      | zero => cases enough
      | succ fuel =>
          have shape : (id :: ids).flatMap (binaryIdBytes order) = order.write 8 id.length ++ (id ++
              (Bytes.zeros ((8 - (8 + id.length) % 8) % 8) ++
                ids.flatMap (binaryIdBytes order))) := by
            rw [List.flatMap_cons, binaryIdBytes, pad_to_eq, List.length_append, length_write]
            simp only [List.append_assoc]
          have later := ih (fun other member => small other (List.mem_cons_of_mem _ member)) fuel
            (start + 8 + id.length + (8 - (8 + id.length) % 8) % 8)
            (Nat.le_of_succ_le_succ enough) (by omega)
          have more : ((id :: ids).flatMap (binaryIdBytes order) ++ []).isEmpty = false := by
            have some := length_le_binary_ids order (id :: ids)
            cases written : (id :: ids).flatMap (binaryIdBytes order) with
            | nil =>
                rw [written] at some
                cases some
            | cons _ _ => rfl
          apply Read.bind_yields_nil Read.at_end_yields
          rw [more, shape]
          apply Read.bind_yields (Read.u64_yields _)
          rw [UInt64.toNat_ofNat_of_lt' (small id List.mem_cons_self)]
          apply Read.bind_yields (Read.bytes_yields id)
          have padded := Read.padding_yields order (ids.flatMap (binaryIdBytes order) ++ []) start
            (8 + id.length) aligned
          rw [← Nat.add_assoc] at padded
          rw [length_write]
          apply Read.bind_yields padded
          rw [length_zeros]
          exact Read.bind_yields_last later (Read.pure_yields _)

end BinaryIds

end ExecCounts.Raw
