import ExecCounts.Proofs.Cut
import ExecCounts.Proofs.Outcome
import ExecCounts.Proofs.Placed
import ExecCounts.Proofs.Raw.Dump

set_option autoImplicit false

namespace ExecCounts.Raw.Dump

variable (dump : Dump)

theorem length_magic_bytes (machine : Machine) : machine.magicBytes.length = 8 :=
  length_write _ _ _

def bodyWith (records : Bytes) : Bytes :=
  dump.machine.magicBytes ++
    (dump.order.write 8 (dump.variant.word (UInt64.ofNat dump.version.tag)).toNat ++ (dump.headerBytes ++
      (dump.idBytes ++ (records ++ (dump.paddingBefore ++ (dump.countBytes dump.counters ++
        (dump.paddingAfter ++ dump.names)))))))

def bytesWith (records : Bytes) : Bytes := dump.bodyWith records ++ (dump.alignment ++ dump.blobs)

theorem bytes_with_own : dump.bytesWith dump.recordsBytes = dump.bytes := rfl

theorem detect_magic (machine : Machine) (data : Bytes) (start : data.take 8 = machine.magicBytes) :
    Machine.detect? data = some machine := by
  rw [Machine.detect?, start]
  obtain ⟨order, pointer⟩ := machine
  cases order <;> cases pointer <;> decide

theorem detected_with (records : Bytes) :
    Machine.detect? (dump.bytesWith records) = some dump.machine := by
  apply detect_magic
  rw [bytesWith, bodyWith, List.append_assoc, ← length_magic_bytes dump.machine, List.take_left]

theorem detected : Machine.detect? dump.bytes = some dump.machine :=
  dump.detected_with dump.recordsBytes

def contents (names : List NameEntry) (blobs : Cursor) : Contents where
  machine := dump.machine
  version := dump.version
  variant := dump.variant
  binaryIds := dump.storedIds
  recordsOffset := 16 + dump.headerBytes.length + dump.idBytes.length
  recordCount := dump.entries.length
  records := Cursor.ofBytes dump.recordsBytes dump.order
  counters := Cursor.ofBytes (dump.countBytes dump.counters) dump.order
  countersDelta := dump.countersDelta
  names := names
  blobs := blobs

def contentsWith (records : Bytes) (names : List NameEntry) (blobs : Cursor) : Contents :=
  { dump.contents names blobs with records := Cursor.ofBytes records dump.order }

theorem length_body : dump.body.length = 16 + dump.headerBytes.length + dump.idBytes.length +
    dump.recordsBytes.length + dump.paddingBefore.length + (dump.countBytes dump.counters).length +
      dump.paddingAfter.length + dump.names.length := by
  simp only [body, List.length_append, length_write, length_magic_bytes]
  omega

theorem length_bytes :
    dump.bytes.length = dump.body.length + dump.alignment.length + dump.blobs.length := by
  rw [bytes, List.length_append, List.length_append, Nat.add_assoc]

section Blobs

variable (records : Bytes) (sameLength : records.length = dump.recordsBytes.length)

include sameLength

theorem length_body_with : (dump.bodyWith records).length = dump.body.length := by
  rw [length_body]
  simp only [bodyWith, List.length_append, length_write, length_magic_bytes]
  omega

def blobsCursor : Cursor :=
  (Cursor.ofBytes (dump.bytesWith records) dump.order).move
    (dump.body.length + dump.alignment.length) (by
      change _ ≤ (dump.bodyWith records ++ (dump.alignment ++ dump.blobs)).length
      rw [List.length_append, List.length_append, dump.length_body_with records sameLength,
        ← Nat.add_assoc]
      exact Nat.le_add_right _ _)

theorem blobs_left : (dump.blobsCursor records sameLength).rest = dump.blobs := by
  change (dump.bytesWith records).drop (dump.body.length + dump.alignment.length) = _
  rw [bytesWith, ← List.append_assoc, ← dump.length_body_with records sameLength,
    ← List.length_append, List.drop_left]

end Blobs

theorem header_lists (version : Version) (field : RawField) (other : field ≠ .binaryIdsSize) :
    field ∈ version.rawLayout.header := by
  cases field <;> first | exact absurd rfl other | (cases version <;> decide)

def header : Header :=
  dump.version.rawLayout.header.map fun field => (field, UInt64.ofNat (dump.fieldValue field))

theorem header_yields (start : Nat) (rest : Bytes) :
    Read.Yields (readHeader dump.version.rawLayout.header) dump.order start dump.headerBytes rest
      dump.header :=
  read_header_yields _ _ _ start rest

section Sound

variable {dump} {names : List NameEntry} (sound : dump.Sound names)

include sound

theorem field_small (field : RawField) : dump.fieldValue field < UInt64.size := by
  have small := sound.small
  have kinds := sound.lastKind
  have records := dump.length_records_from 0 dump.entries
  have counters := dump.length_count_bytes dump.counters
  have count : dump.entries.length ≤ dump.entries.length * dump.machine.recordSize :=
    Nat.le_mul_of_pos_right _ (record_size_pos dump.machine)
  rw [length_bytes, length_body, recordsBytes] at small
  cases field with
  | binaryIdsSize | dataSize | countersSize | namesSize | paddingBytesBeforeCounters
  | paddingBytesAfterCounters =>
      rw [fieldValue]
      omega
  | countersDelta | namesDelta => exact UInt64.toNat_lt_size _
  | valueKindLast => exact Nat.lt_of_le_of_lt kinds (by decide)

theorem field_read (field : RawField) (other : field ≠ .binaryIdsSize) :
    dump.header.value field = dump.fieldValue field := by
  rw [header, header_value _ _ _ (field_small sound field),
    if_pos (header_lists dump.version field other)]

theorem header_values :
    dump.header.value .valueKindLast = dump.lastKind ∧
    dump.header.value .dataSize = dump.entries.length ∧
    dump.header.value .paddingBytesBeforeCounters = dump.paddingBefore.length ∧
    dump.header.value .countersSize = dump.counters.length ∧
    dump.header.value .paddingBytesAfterCounters = dump.paddingAfter.length ∧
    dump.header.value .namesSize = dump.names.length ∧
    dump.header.value .countersDelta = dump.countersDelta.toNat :=
  ⟨field_read sound .valueKindLast nofun, field_read sound .dataSize nofun,
    field_read sound .paddingBytesBeforeCounters nofun, field_read sound .countersSize nofun,
    field_read sound .paddingBytesAfterCounters nofun, field_read sound .namesSize nofun,
    field_read sound .countersDelta nofun⟩

theorem binary_ids_size_read : dump.header.value .binaryIdsSize = dump.idBytes.length := by
  rw [header, header_value _ _ _ (field_small sound .binaryIdsSize)]
  by_cases has : dump.version.rawLayout.hasBinaryIds
  · rw [if_pos (List.contains_iff_mem.mp has), fieldValue]
  · rw [if_neg fun listed => has (List.contains_iff_mem.mpr listed), idBytes, storedIds, if_neg has]
    rfl

theorem binary_ids_read :
    (Cursor.ofBytes dump.idBytes dump.order).read (binaryIds dump.idBytes.length) =
      .ok dump.storedIds := by
  have small := sound.small
  rw [length_bytes, length_body, idBytes] at small
  apply Read.read_of_yields
  apply binary_ids_yields _ _ _ _ _ (length_le_binary_ids _ _) rfl
  intro id member
  have part := length_part_le _ (binaryIdBytes dump.order) id member
  have own := length_le_binary_id_bytes dump.order id
  omega

section Records

variable {records : Bytes} (sameLength : records.length = dump.recordsBytes.length)

theorem run_alignment {α : Type} (result : Cursor → α) (cursor : Cursor)
    (sameData : cursor.data = dump.bytesWith records) (ordered : cursor.order = dump.order)
    (placed : cursor.offset = dump.body.length)
    (remaining : cursor.rest = dump.alignment ++ dump.blobs) :
    ∃ after : Cursor, (do
      if !(← Read.atEnd) then Read.align 8
      return result (← get) : Read α) cursor =
        .ok (result (dump.blobsCursor records sameLength)) after := by
  have reached : ∀ final : Cursor, final.data = cursor.data → final.order = dump.order →
      final.offset = dump.body.length + dump.alignment.length →
        final = dump.blobsCursor records sameLength :=
    fun final data order offset => Cursor.ext_position (data.trans sameData) order offset
  refine Read.run_bind_nil cursor Read.at_end_yields ?_
  by_cases ended : cursor.rest.isEmpty
  · rw [ended]
    have none := List.isEmpty_iff.mp ended
    rw [remaining, List.append_eq_nil_iff] at none
    have here := reached cursor rfl ordered (by rw [placed, none.1, List.length_nil, Nat.add_zero])
    exact ⟨cursor, by rw [← here]; rfl⟩
  · have padded : dump.alignment.length = Read.padding dump.body.length 8 := by
      refine sound.aligned.resolve_right fun none => ended ?_
      rw [remaining, none.1, none.2]
      rfl
    rw [Bool.not_eq_true] at ended
    rw [ended]
    refine Read.run_bind (Read.align_yields padded) cursor ordered placed remaining ?_
    intro cursor data order placed remaining
    have here := reached cursor data order placed
    exact ⟨cursor, by rw [← here]; rfl⟩

include sameLength in
theorem contents_lead
    (namesRead : readNames (Cursor.ofBytes dump.names dump.order) = .ok names) :
    Read.Leads (readContents dump.machine) (do
      if !(← Read.atEnd) then Read.align 8
      return dump.contentsWith records names (← get)) dump.order 0 (dump.bodyWith records) := by
  have small := sound.small
  have recordsLength := sameLength.trans (dump.length_records_from 0 dump.entries)
  have countersLength := dump.length_count_bytes dump.counters
  rw [length_bytes, length_body, ← sameLength] at small
  obtain ⟨lastKind, recordCount, before, counterCount, after, namesSize, delta⟩ :=
    header_values sound
  unfold readContents
  rw [bodyWith]
  -- magic
  apply Read.bind_leads (Read.leads_of_yields (fun rest => Read.skip_yields (length_magic_bytes _))
    fun missing => Read.skip_survives Read.truncated _)
  -- version and flags
  apply Read.bind_leads (Read.leads_of_yields (fun rest => Read.u64_word_yields _)
    fun missing => Read.u64_survives Read.truncated)
  rw [Variant.of_word_word]
  dsimp only
  apply Read.bind_leads_nil fun rest => Read.of_except_ok_yields
    ((map_error_ok_iff _ _ _).mpr (Version.require_tag dump.version))
  -- header fields
  apply Read.bind_leads (Read.leads_of_yields (fun rest => dump.header_yields _ rest)
    fun missing => read_header_survives _)
  rw [lastKind, recordCount, before, counterCount, after, namesSize, delta, UInt64.ofNat_toNat,
    binary_ids_size_read sound, if_neg (Nat.not_lt.mpr sound.lastKind)]
  -- binary ids
  apply Read.bind_leads (Read.leads_of_yields (fun rest => subsection_yields rfl)
    fun missing => subsection_survives _)
  apply Read.bind_leads_nil fun rest => Read.of_except_ok_yields (binary_ids_read sound)
  apply Read.bind_leads_nil fun rest => Read.position_yields
  have recordsOffset : 0 + dump.machine.magicBytes.length + (dump.order.write 8
      (dump.variant.word (UInt64.ofNat dump.version.tag)).toNat).length + dump.headerBytes.length +
        dump.idBytes.length = 16 + dump.headerBytes.length + dump.idBytes.length := by
    rw [length_write, length_magic_bytes]
  rw [recordsOffset]
  -- data records
  apply Read.bind_leads_nil fun rest => section_size_yields (by omega)
  apply Read.bind_leads (Read.leads_of_yields (fun rest => subsection_yields recordsLength)
    fun missing => subsection_survives _)
  apply Read.bind_leads (Read.leads_of_yields (fun rest => Read.skip_yields rfl)
    fun missing => Read.skip_survives Read.truncated _)
  -- counters
  apply Read.bind_leads_nil fun rest => section_size_yields (by omega)
  apply Read.bind_leads (Read.leads_of_yields
    (fun rest => subsection_yields (countersLength.trans (Nat.mul_comm _ _)))
    fun missing => subsection_survives _)
  apply Read.bind_leads (Read.leads_of_yields (fun rest => Read.skip_yields rfl)
    fun missing => Read.skip_survives Read.truncated _)
  apply Read.bind_leads_nil fun rest => Read.position_yields
  -- names
  apply Read.bind_leads_last (Read.leads_of_yields (fun rest => subsection_yields rfl)
    fun missing => subsection_survives _)
  apply Read.bind_leads_nil fun rest => Read.of_except_ok_yields
    ((map_error_ok_iff _ _ _).mpr namesRead)
  exact Read.leads_self _

theorem read_contents
    (namesRead : readNames (Cursor.ofBytes dump.names dump.order) = .ok names) :
    ∃ after : Cursor,
      readContents dump.machine (Cursor.ofBytes (dump.bytesWith records) dump.order) =
        .ok (dump.contentsWith records names (dump.blobsCursor records sameLength)) after := by
  obtain ⟨middle, data, ordered, placed, ran⟩ := (contents_lead sound sameLength namesRead).onward
    (Cursor.ofBytes (dump.bytesWith records) dump.order) _ rfl rfl rfl
  rw [Nat.zero_add, dump.length_body_with records sameLength] at placed
  have left : middle.rest = dump.alignment ++ dump.blobs := by
    rw [middle.rest_eq, data, placed, ← dump.length_body_with records sameLength]
    exact List.drop_left
  rw [ran]
  exact run_alignment sound sameLength (dump.contentsWith records names) middle data ordered placed left

end Records

end Sound

end ExecCounts.Raw.Dump
