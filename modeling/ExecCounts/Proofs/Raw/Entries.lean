import ExecCounts.Proofs.Raw.Stored

set_option autoImplicit false

namespace ExecCounts.Raw

structure DataRecord.Taken (pointer : Width) (cursor after : Cursor) (record : DataRecord) : Prop where
  nameRef : record.nameRef.toNat = cursor.order.numberAt cursor.data cursor.offset 8
  hash : record.hash.toNat = cursor.order.numberAt cursor.data (cursor.offset + 8) 8
  counterPointer : record.counterPointer.toNat =
    cursor.order.numberAt cursor.data (cursor.offset + 16) pointer.size
  counterCount : record.counterCount.toNat =
    cursor.order.numberAt cursor.data (cursor.offset + (16 + 3 * pointer.size)) 4
  callSites : record.callSites.toNat =
    cursor.order.numberAt cursor.data (cursor.offset + (16 + 3 * pointer.size + 4)) 2
  memOpSites : record.memOpSites.toNat =
    cursor.order.numberAt cursor.data (cursor.offset + (16 + 3 * pointer.size + 6)) 2
  data : after.data = cursor.data
  order : after.order = cursor.order
  offset : after.offset = alignUp (cursor.offset + (16 + 3 * pointer.size + 8)) 8

theorem data_record_ran {pointer : Width} {cursor after : Cursor} {record : DataRecord}
    (ran : DataRecord.read pointer cursor = .ok record after) :
    DataRecord.Taken pointer cursor after record := by
  rw [DataRecord.read] at ran
  obtain ⟨nameRef, afterRef, refRan, ran⟩ := (Read.bind_ran_iff _ _ _).mp ran
  obtain ⟨hash, afterHash, hashRan, ran⟩ := (Read.bind_ran_iff _ _ _).mp ran
  obtain ⟨counters, afterCounters, countersRan, ran⟩ := (Read.bind_ran_iff _ _ _).mp ran
  obtain ⟨function, afterFunction, functionRan, ran⟩ := (Read.bind_ran_iff _ _ _).mp ran
  obtain ⟨values, afterValues, valuesRan, ran⟩ := (Read.bind_ran_iff _ _ _).mp ran
  obtain ⟨count, afterCount, countRan, ran⟩ := (Read.bind_ran_iff _ _ _).mp ran
  obtain ⟨calls, afterCalls, callsRan, ran⟩ := (Read.bind_ran_iff _ _ _).mp ran
  obtain ⟨memOps, afterMemOps, memOpsRan, ran⟩ := (Read.bind_ran_iff _ _ _).mp ran
  obtain ⟨⟨⟩, last, alignRan, ran⟩ := (Read.bind_ran_iff _ _ _).mp ran
  obtain ⟨rfl, rfl⟩ := (Read.pure_ran_iff _ _).mp ran
  obtain ⟨refNumber, refMoved⟩ := Read.u64_ran refRan
  obtain ⟨hashNumber, hashMoved⟩ := Read.u64_ran hashRan
  have beforeCounters := refMoved.trans hashMoved
  obtain ⟨counterNumber, counterMoved⟩ := Read.uint_ran countersRan
  have beforeCount : cursor.Moved (16 + 3 * pointer.size) afterValues := by
    have moved := ((beforeCounters.trans counterMoved).trans (Read.uint_ran functionRan).2).trans
      (Read.uint_ran valuesRan).2
    have pointers : 16 + 3 * pointer.size = 8 + 8 + pointer.size + pointer.size + pointer.size := by
      omega
    rwa [pointers]
  obtain ⟨countNumber, countMoved⟩ := Read.u32_ran countRan
  have beforeCalls := beforeCount.trans countMoved
  obtain ⟨callsNumber, callsMoved⟩ := Read.u16_ran callsRan
  have beforeMemOps := beforeCalls.trans callsMoved
  obtain ⟨memOpsNumber, memOpsMoved⟩ := Read.u16_ran memOpsRan
  have behind := beforeMemOps.trans memOpsMoved
  obtain ⟨data, order, placed⟩ := Read.align_eight_ran alignRan
  exact {
    nameRef := refNumber
    hash := hashNumber.trans (refMoved.number_at _)
    counterPointer := counterNumber.trans (beforeCounters.number_at _)
    counterCount := countNumber.trans (beforeCount.number_at _)
    callSites := callsNumber.trans (beforeCalls.number_at _)
    memOpSites := memOpsNumber.trans (beforeMemOps.number_at _)
    data := data.trans behind.data
    order := order.trans behind.order
    offset := by rw [placed, behind.offset] }

namespace Stored

variable (stored : Stored)

section Pieces

variable (index : Nat)

def dataRecord : DataRecord where
  nameRef := UInt64.ofNat (stored.nameRef index)
  hash := UInt64.ofNat (stored.hash index)
  counterPointer := UInt64.ofNat (stored.counterPointer index)
  counterCount := UInt32.ofNat (stored.counterCount index)
  callSites := UInt16.ofNat (stored.siteCount index .indirectCallTarget)
  memOpSites := UInt16.ofNat (stored.siteCount index .memOpSize)

def blob? : Option Cursor :=
  if stored.hasSites index then some (Cursor.ofBytes (stored.blob index) stored.machine.order) else none

structure AtRecord (cursor : Cursor) : Prop where
  data : cursor.data = stored.slice stored.recordsStart stored.recordsLength
  order : cursor.order = stored.machine.order
  offset : cursor.offset = index * stored.machine.recordSize

theorem data_record_ref : (stored.dataRecord index).nameRef.toNat = stored.nameRef index :=
  UInt64.toNat_ofNat_of_lt' (ByteOrder.number_at_lt _ _ _ 8)

theorem data_record_hash : (stored.dataRecord index).hash.toNat = stored.hash index :=
  UInt64.toNat_ofNat_of_lt' (ByteOrder.number_at_lt _ _ _ 8)

theorem data_record_pointer :
    (stored.dataRecord index).counterPointer.toNat = stored.counterPointer index := by
  have small := ByteOrder.number_at_lt stored.machine.order stored.data (stored.recordStart index + 16)
    stored.machine.pointer.size
  refine UInt64.toNat_ofNat_of_lt' (Nat.lt_of_lt_of_le small ?_)
  cases stored.machine.pointer <;> decide

theorem data_record_count :
    (stored.dataRecord index).counterCount.toNat = stored.counterCount index :=
  UInt32.toNat_ofNat_of_lt' (ByteOrder.number_at_lt _ _ _ 4)

theorem data_record_site_count (kind : ValueKind) :
    (stored.dataRecord index).siteCount kind = stored.siteCount index kind := by
  cases kind <;> exact UInt16.toNat_ofNat_of_lt' (ByteOrder.number_at_lt _ _ _ 2)

theorem data_record_has_sites : (stored.dataRecord index).hasSites = stored.hasSites index := by
  rw [DataRecord.hasSites, Stored.hasSites]
  exact congrArg ValueKind.all.any (funext fun kind => by rw [data_record_site_count])

end Pieces

section Record

variable {stored : Stored} {index : Nat} {cursor after : Cursor}
  (known : index < stored.field .dataSize)

theorem record_room (machine : Machine) : 16 + 3 * machine.pointer.size + 8 ≤ machine.recordSize := by
  rw [Machine.recordSize]
  cases machine.pointer <;> decide

include known

theorem record_number (here : stored.AtRecord index cursor) {distance width : Nat}
    (inside : distance + width ≤ stored.machine.recordSize) :
    cursor.order.numberAt cursor.data (cursor.offset + distance) width =
      stored.number (stored.recordStart index + distance) width := by
  have within : (index + 1) * stored.machine.recordSize ≤ stored.recordsLength :=
    Nat.mul_le_mul_right _ known
  rw [Nat.succ_mul] at within
  rw [here.data, here.order, here.offset, slice, ByteOrder.number_at_slice _ _ _ _ (by omega), number,
    recordStart, Nat.add_assoc]

theorem record_taken (here : stored.AtRecord index cursor) {record : DataRecord}
    (ran : DataRecord.read stored.machine.pointer cursor = .ok record after) :
    record = stored.dataRecord index ∧ stored.AtRecord (index + 1) after := by
  have taken := data_record_ran ran
  have room := record_room stored.machine
  have own (distance width : Nat)
      (inside : distance + width ≤ 16 + 3 * stored.machine.pointer.size + 8) :=
    record_number known here (Nat.le_trans inside room)
  have width : stored.machine.pointer.size ≤ 8 := by cases stored.machine.pointer <;> decide
  have nameRef : record.nameRef.toNat = stored.nameRef index := taken.nameRef.trans (own 0 8 (by omega))
  have hash : record.hash.toNat = stored.hash index := taken.hash.trans (own 8 8 (by omega))
  have counterPointer : record.counterPointer.toNat = stored.counterPointer index :=
    taken.counterPointer.trans (own 16 _ (by omega))
  have counterCount : record.counterCount.toNat = stored.counterCount index := by
    rw [taken.counterCount, own _ 4 (by omega), Stored.counterCount, countsStart, Nat.add_assoc]
  have callSites : record.callSites.toNat = stored.siteCount index .indirectCallTarget := by
    rw [taken.callSites, own _ 2 (by omega), siteCount, countsStart, ← Nat.add_assoc, ← Nat.add_assoc]
  have memOpSites : record.memOpSites.toNat = stored.siteCount index .memOpSize := by
    rw [taken.memOpSites, own _ 2 (by omega), siteCount, countsStart, ← Nat.add_assoc, ← Nat.add_assoc]
  constructor
  · rw [dataRecord, ← nameRef, ← hash, ← counterPointer, ← counterCount, ← callSites, ← memOpSites,
      UInt64.ofNat_toNat, UInt64.ofNat_toNat, UInt64.ofNat_toNat, UInt32.ofNat_toNat,
      UInt16.ofNat_toNat, UInt16.ofNat_toNat]
  · refine ⟨taken.data.trans here.data, taken.order.trans here.order, ?_⟩
    -- The padding ends where the next record begins, because records begin at multiples of eight.
    have aligned := Dump.record_size_aligned stored.machine
    have size : stored.machine.recordSize = alignUp (16 + 3 * stored.machine.pointer.size + 8) 8 := rfl
    have before : index * stored.machine.recordSize % 8 = 0 := by
      rw [Nat.mul_mod, aligned, Nat.mul_zero, Nat.zero_mod]
    rw [taken.offset, here.offset, Nat.succ_mul index, align_up_eight]
    rw [align_up_eight] at size
    omega

omit known in
theorem blob_taken (here : stored.At cursor (stored.blobStart index)) {blob : Option Cursor}
    (ran : Contents.nextBlob (stored.dataRecord index) cursor = .ok blob after) :
    blob = stored.blob? index ∧ stored.At after (stored.blobStart (index + 1)) := by
  rw [Contents.nextBlob, data_record_has_sites] at ran
  rw [blob?, blobStart]
  cases sites : stored.hasSites index with
  | false =>
      rw [sites] at ran
      obtain ⟨rfl, rfl⟩ := (Read.pure_ran_iff _ _).mp ran
      exact ⟨rfl, here⟩
  | true =>
      rw [sites] at ran
      obtain ⟨piece, framed, rfl⟩ := Read.map_ran ran
      obtain ⟨rfl, moved⟩ := Blob.frame_ran framed
      rw [here.order, here.data, here.offset] at moved ⊢
      exact ⟨rfl, here.moved moved⟩

end Record

section Functions

variable {stored : Stored} {contents : Contents}

def entry (stored : Stored) (contents : Contents) (index : Nat) : Except Failure FunctionRecord :=
  (contents.resolve index (stored.dataRecord index) (stored.blob? index)).mapError
    (·.atOffset (stored.recordStart index))

theorem functions_entries (opens : stored.Opens contents) (count index : Nat) {records blobs : Cursor}
    (known : index + count ≤ stored.field .dataSize) (atRecord : stored.AtRecord index records)
    (atBlob : stored.At blobs (stored.blobStart index))
    (ended : (contents.functions count index records blobs).outcome = .ok ()) :
    contents.functions count index records blobs =
      ⟨(List.range' index count).map (stored.entry contents), .ok ()⟩ := by
  induction count generalizing index records blobs with
  | zero => rfl
  | succ count ih =>
      obtain ⟨record, recordsLeft, blob, blobsLeft, recordRead, blobRead, rest, shape⟩ :=
        functions_succ_ok ended
      rw [opens.machine] at recordRead
      obtain ⟨rfl, nextRecord⟩ := record_taken (by omega) atRecord recordRead
      obtain ⟨rfl, nextBlob⟩ := blob_taken atBlob blobRead
      rw [shape, ih (index + 1) (by omega) nextRecord nextBlob rest, opens.machine, opens.recordsOffset,
        List.range'_succ, List.map_cons]
      rfl

end Functions

end Stored

end ExecCounts.Raw
