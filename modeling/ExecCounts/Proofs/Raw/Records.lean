import ExecCounts.Proofs.Raw.Names
import ExecCounts.Proofs.Raw.Opening
import ExecCounts.Proofs.Transcript

set_option autoImplicit false

namespace ExecCounts.Raw.Dump

variable {dump : Dump} {names : List NameEntry}

theorem count_bytes_append (first second : List Count) :
    dump.countBytes (first ++ second) = dump.countBytes first ++ dump.countBytes second :=
  List.flatMap_append

section Record

variable {index : Nat} {entry : DumpEntry} (fits : dump.EntryFits names index entry)
  (blobs : Cursor)

include fits

theorem name_found (ascending : names.Pairwise (·.offset < ·.offset)) :
    (dump.contents names blobs).name? (dump.dataRecord index entry).nameRef =
      some entry.record.name :=
  congrArg (Option.map NameEntry.name) (find_entry names ascending _ fits.named)

omit fits in
theorem counter_offset_eq :
    (dump.contents names blobs).counterOffset index (dump.dataRecord index entry) =
      UInt64.ofNat (8 * entry.slot) := by
  have layout : (dump.contents names blobs).version.rawLayout = dump.version.rawLayout := rfl
  have machine : (dump.contents names blobs).machine = dump.machine := rfl
  have delta : (dump.contents names blobs).countersDelta = dump.countersDelta := rfl
  have pointer : (dump.dataRecord index entry).counterPointer = dump.counterPointer index entry := rfl
  rw [Contents.counterOffset, layout, machine, delta, pointer, counterPointer]
  -- Where one of the two operations overflows, the other one undoes it.
  by_cases relative : dump.version.rawLayout.relativeCounters
  · rw [if_pos relative, if_pos relative, UInt64.sub_add_cancel, UInt64.add_comm,
      UInt64.add_sub_cancel]
  · rw [if_neg relative, if_neg relative, UInt64.add_comm, UInt64.add_sub_cancel]

theorem counters_placed : Placed (dump.countBytes dump.counters) (8 * entry.slot)
    (dump.countBytes entry.record.counters) := by
  obtain ⟨others, split⟩ := fits.counted
  refine ⟨dump.countBytes (dump.counters.take entry.slot), dump.countBytes others, ?_, ?_⟩
  · rw [← count_bytes_append, ← count_bytes_append, split, List.take_append_drop]
  · rw [length_count_bytes, List.length_take_of_le fits.inside]

theorem counters_read (small : (dump.countBytes dump.counters).length < UInt64.size) :
    (dump.contents names blobs).counters? index (dump.dataRecord index entry) =
      .ok entry.record.counters := by
  have placed := counters_placed fits
  have within := placed.within
  rw [length_count_bytes dump entry.record.counters] at within
  have offset : (UInt64.ofNat (8 * entry.slot)).toNat = 8 * entry.slot :=
    UInt64.toNat_ofNat_of_lt' (by omega)
  have count : (dump.dataRecord index entry).counterCount.toNat = entry.record.counters.length :=
    UInt32.toNat_ofNat_of_lt' fits.fewCounters
  have sound : 8 * entry.slot % 8 = 0 ∧ 8 * entry.slot + 8 * entry.record.counters.length ≤
      (dump.contents names blobs).counters.data.length := ⟨Nat.mul_mod_right _ _, within⟩
  simp only [Contents.counters?, counter_offset_eq, offset, count]
  rw [if_pos sound]
  apply Read.read_of_run
  refine Read.seek_placed placed (fun rest => ?_) _ rfl rfl
  exact Read.times_yields (fun count : Count => dump.order.write 8 count.toNat) _
    fun count _ _ _ => Read.u64_word_yields count

theorem record_resolved (ascending : names.Pairwise (·.offset < ·.offset))
    (small : (dump.countBytes dump.counters).length < UInt64.size) :
    (dump.contents names blobs).resolve index (dump.dataRecord index entry)
      (entry.record.pruned.values.map fun values =>
        Cursor.ofBytes (Blob.blobBytes dump.order values) dump.order) = .ok entry.record.pruned := by
  have counters := counters_read fits blobs small
  have storable := fits.storable
  rw [Contents.resolve, name_found fits blobs ascending]
  simp only [map_error_ok_iff, bind_ok_iff]
  refine ⟨entry.record.counters, counters, ?_⟩
  cases kept : entry.record.pruned.values with
  | none =>
      refine (pure_ok_iff _ _).mpr ?_
      rw [← kept]
      rfl
  | some values =>
      rw [kept] at storable
      have counts : ∀ declared ∈ some (dump.dataRecord index entry).siteCount,
          ∀ kind, declared kind = (values.sites kind).length := by
        intro declared same kind
        cases same
        rw [entry.record.pruned_sites values kept]
        exact dump.data_record_site_count index entry fits kind
      have decoded := Read.read_of_yields
        (Blob.decode_yields dump.order values (storable values rfl) _ counts)
      simp only [Option.map_some, bind_ok_iff, pure_ok_iff]
      refine ⟨values, decoded, ?_⟩
      rw [← kept]
      rfl

end Record

end Dump

structure StoredRecord where
  bytes : Bytes
  record : DataRecord
  blobBytes : Bytes
  blob : Option Cursor

structure StoredRecord.Reads (machine : Machine) (stored : StoredRecord) : Prop where
  length : stored.bytes.length = machine.recordSize
  record : ∀ start rest, start % 8 = 0 → Read.Yields (DataRecord.read machine.pointer) machine.order
    start stored.bytes rest stored.record
  blob : ∀ start rest, Read.Yields (Contents.nextBlob stored.record) machine.order start
    stored.blobBytes rest stored.blob

def Contents.entry (contents : Contents) (index : Nat) (stored : StoredRecord) :
    Except Failure FunctionRecord :=
  (contents.resolve index stored.record stored.blob).mapError
    (·.atOffset (contents.recordsOffset + index * contents.machine.recordSize))

theorem functions_stored (contents : Contents) (all : List StoredRecord) (index : Nat)
    (reads : ∀ stored ∈ all, stored.Reads contents.machine) (recordCursor blobCursor : Cursor)
    (recordsOrdered : recordCursor.order = contents.machine.order)
    (aligned : recordCursor.offset % 8 = 0)
    (recordsLeft : recordCursor.rest = all.flatMap StoredRecord.bytes)
    (blobsOrdered : blobCursor.order = contents.machine.order)
    (blobsLeft : blobCursor.rest = all.flatMap StoredRecord.blobBytes) :
    contents.functions all.length index recordCursor blobCursor =
      ⟨(all.zipIdx index).map fun (stored, index) => contents.entry index stored, .ok ()⟩ := by
  induction all generalizing index recordCursor blobCursor with
  | nil => rfl
  | cons stored all ih =>
      obtain ⟨own, others⟩ := List.forall_mem_cons.mp reads
      rw [List.flatMap_cons] at recordsLeft blobsLeft
      obtain ⟨recordAfter, recordRan, recordData, recordOrder, recordMoved⟩ :=
        own.record recordCursor.offset _ aligned recordCursor recordsOrdered rfl recordsLeft
      obtain ⟨blobAfter, blobRan, blobData, blobOrder, blobMoved⟩ :=
        own.blob blobCursor.offset _ blobCursor blobsOrdered rfl blobsLeft
      have recordsLeft := Read.rest_after recordCursor recordAfter _ recordsLeft recordData recordMoved
      have blobsLeft := Read.rest_after blobCursor blobAfter _ blobsLeft blobData blobMoved
      have alignedAfter : recordAfter.offset % 8 = 0 := by
        have size := Dump.record_size_aligned contents.machine
        rw [recordMoved, own.length]
        omega
      have rest := ih (index + 1) others recordAfter blobAfter recordOrder alignedAfter recordsLeft
        blobOrder blobsLeft
      rw [List.length_cons, Contents.functions, recordRan]
      dsimp only
      rw [blobRan]
      dsimp only
      rw [rest]
      rfl

namespace Dump

variable {dump : Dump} {names : List NameEntry}

def stored (dump : Dump) (index : Nat) (entry : DumpEntry) : StoredRecord where
  bytes := dump.recordBytes index entry
  record := dump.dataRecord index entry
  blobBytes := dump.blobBytes entry
  blob := entry.record.pruned.values.map fun values =>
    Cursor.ofBytes (Blob.blobBytes dump.order values) dump.order

theorem stored_reads {index : Nat} {entry : DumpEntry} (fits : dump.EntryFits names index entry) :
    (dump.stored index entry).Reads dump.machine where
  length := dump.length_record_bytes index entry
  record := fun start rest => dump.data_record_yields index entry fits start rest
  blob := dump.next_blob_yields index entry fits

def allStored (dump : Dump) : List StoredRecord :=
  dump.entries.zipIdx.map fun (entry, index) => dump.stored index entry

theorem all_stored_bytes : dump.allStored.flatMap StoredRecord.bytes = dump.recordsBytes :=
  List.flatMap_map _ _ _

theorem all_stored_blobs : dump.allStored.flatMap StoredRecord.blobBytes = dump.blobs := by
  rw [allStored, List.flatMap_map]
  have blobs := List.flatMap_map Prod.fst dump.blobBytes dump.entries.zipIdx
  rw [List.zipIdx_map_fst] at blobs
  exact blobs.symm

theorem length_all_stored : dump.allStored.length = dump.entries.length := by
  rw [allStored, List.length_map, List.length_zipIdx]

def transcriptOf (dump : Dump) (names : List NameEntry) (all : List StoredRecord) :
    Transcript FunctionRecord Unit :=
  ⟨all.mapIdx (dump.contents names (Cursor.ofBytes dump.blobs dump.order)).entry, .ok ()⟩

theorem length_stored (machine : Machine) (all : List StoredRecord)
    (reads : ∀ stored ∈ all, stored.Reads machine) :
    (all.flatMap StoredRecord.bytes).length = all.length * machine.recordSize := by
  rw [List.length_flatMap, List.map_congr_left fun stored member => (reads stored member).length,
    List.map_const', List.sum_replicate_nat]

section Sound

variable (sound : dump.Sound names)

include sound

theorem all_stored_reads : ∀ stored ∈ dump.allStored, stored.Reads dump.machine := by
  intro stored member
  obtain ⟨place, listed, rfl⟩ := List.mem_map.mp member
  exact stored_reads (sound.entries place listed)

theorem parse_stored (policy : Policy)
    (namesRead : readNames (Cursor.ofBytes dump.names dump.order) = .ok names)
    (all : List StoredRecord) (reads : ∀ stored ∈ all, stored.Reads dump.machine)
    (count : all.length = dump.entries.length)
    (blobs : all.flatMap StoredRecord.blobBytes = dump.blobs) :
    parse policy (dump.bytesWith (all.flatMap StoredRecord.bytes)) = (do
      let (records, skipped) ← (dump.transcriptOf names all).settle policy
      return { dump.profile with records, skipped }) := by
  have sameLength : (all.flatMap StoredRecord.bytes).length = dump.recordsBytes.length := by
    rw [length_stored dump.machine all reads, count, recordsBytes, length_records_from]
  generalize written : all.flatMap StoredRecord.bytes = records at sameLength ⊢
  have opened := Read.read_of_run (read_contents sound sameLength namesRead)
  have run := functions_stored
    (dump.contentsWith records names (dump.blobsCursor records sameLength)) all 0 reads
    (Cursor.ofBytes records dump.order) (dump.blobsCursor records sameLength) rfl rfl written.symm rfl
    ((dump.blobs_left records sameLength).trans blobs.symm)
  rw [count, ← List.mapIdx_eq_zipIdx_map] at run
  have transcript : (dump.contentsWith records names (dump.blobsCursor records sameLength)).transcript =
      dump.transcriptOf names all := run
  rw [parse, Raw.contents, detected_with]
  dsimp only
  rw [opened]
  change (Transcript.settle policy (Contents.transcript _) >>= _) = _
  rw [transcript]
  rfl

theorem all_stored_entries (ascending : names.Pairwise (·.offset < ·.offset)) :
    dump.transcriptOf names dump.allStored =
      ⟨(dump.entries.map fun entry => entry.record.pruned).map .ok, .ok ()⟩ := by
  have small := sound.small
  rw [length_bytes, length_body] at small
  refine congrArg (Transcript.mk · _) (List.ext_getElem ?_ ?_)
  · simp only [List.length_map, List.length_mapIdx, length_all_stored]
  · intro index bound otherBound
    simp only [List.length_map] at otherBound
    have place : (dump.entries[index], index) ∈ dump.entries.zipIdx :=
      List.mem_zipIdx_iff_getElem?.mpr (List.getElem?_eq_getElem otherBound)
    have resolved := record_resolved (sound.entries _ place) (Cursor.ofBytes dump.blobs dump.order)
      ascending (by omega)
    simp only [allStored, List.getElem_mapIdx, List.getElem_map, List.getElem_zipIdx, Nat.zero_add]
    exact (map_error_ok_iff _ _ _).mpr resolved

end Sound

theorem sound_read {policy : Policy} (ascending : names.Pairwise (·.offset < ·.offset))
    (sound : dump.Sound names)
    (namesRead : readNames (Cursor.ofBytes dump.names dump.order) = .ok names) :
    parse policy dump.bytes = .ok dump.profile := by
  have read := parse_stored sound policy namesRead dump.allStored (all_stored_reads sound)
    length_all_stored all_stored_blobs
  rw [all_stored_bytes, bytes_with_own, all_stored_entries sound ascending, Transcript.settle_ok] at read
  exact read

end ExecCounts.Raw.Dump
