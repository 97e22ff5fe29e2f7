import ExecCounts.Mapping.Reader
import ExecCounts.Proofs.Header
import ExecCounts.Proofs.Policy
import ExecCounts.Proofs.Reading

set_option autoImplicit false

namespace ExecCounts

namespace Section

def recordEnd (layout : MappingLayout) (order : ByteOrder) (data : Bytes) (offset : Nat) : Nat :=
  match Leb128.decode (data.drop offset) with
  | .error _ => data.length
  | .ok (nameLength, used) =>
      let sizeOffset := offset + (used + nameLength) + 8
      let stop := sizeOffset + 4 + order.numberAt data sizeOffset 4
      if layout.alignedRecords then alignUp stop 8 else stop

def recordsEnd (layout : MappingLayout) (order : ByteOrder) (data : Bytes) : Nat → Nat → Nat
  | 0, offset => offset
  | n + 1, offset => recordsEnd layout order data n (recordEnd layout order data offset)

def storedOrder (data : Bytes) (start : Nat) : ByteOrder :=
  if (data.drop start).take 4 = magic .little then .little else .big

def declaredCounts (data : Bytes) : Nat → Nat → List Nat
  | 0, _ => []
  | fuel + 1, offset =>
      if (data.drop offset).all (· == 0) then []
      else
        let start := alignUp offset 8
        let order := storedOrder data start
        match Version.ofTag? (order.numberAt data (start + 4) 4) with
        | none => []
        | some version =>
            let count := order.numberAt data (start + 8) 4
            let namesSize := order.numberAt data (start + 12) 4
            let records := alignUp (start + 16 + namesSize) 8
            count :: declaredCounts data fuel
              (recordsEnd version.mappingLayout order data count records)

structure Place where
  id : FunctionId
  start : Nat
  size : Nat
deriving DecidableEq

def placeAt? (order : ByteOrder) (data : Bytes) (offset : Nat) : Option Place :=
  match Leb128.decode (data.drop offset) with
  | .error _ => none
  | .ok (nameLength, used) =>
      let name := (Utf8.text? ((data.drop (offset + used)).take nameLength)).getD ""
      let hashOffset := offset + (used + nameLength)
      some {
        id := ⟨name, UInt64.ofNat (order.numberAt data hashOffset 8)⟩
        start := hashOffset + 8 + 4
        size := order.numberAt data (hashOffset + 8) 4 }

def placesFrom (layout : MappingLayout) (order : ByteOrder) (data : Bytes) : Nat → Nat → List Place
  | 0, _ => []
  | n + 1, offset => (placeAt? order data offset).toList ++
      placesFrom layout order data n (recordEnd layout order data offset)

def declaredPlaces (data : Bytes) : Nat → Nat → List Place
  | 0, _ => []
  | fuel + 1, offset =>
      if (data.drop offset).all (· == 0) then []
      else
        let start := alignUp offset 8
        let order := storedOrder data start
        match Version.ofTag? (order.numberAt data (start + 4) 4) with
        | none => []
        | some version =>
            let layout := version.mappingLayout
            let count := order.numberAt data (start + 8) 4
            let namesSize := order.numberAt data (start + 12) 4
            let records := alignUp (start + 16 + namesSize) 8
            placesFrom layout order data count records ++
              declaredPlaces data fuel (recordsEnd layout order data count records)

theorem record_end_eq (layout : MappingLayout) (order : ByteOrder) (data : Bytes) (offset : Nat)
    (place : Place) (found : placeAt? order data offset = some place) :
    recordEnd layout order data offset = if layout.alignedRecords then
      alignUp (place.start + place.size) 8 else place.start + place.size := by
  rw [placeAt?] at found
  rw [recordEnd]
  split at found
  · cases found
  · cases found
    rfl

structure RecordHead where
  offset : Nat
  name : String
  hash : UInt64
  size : UInt32

def readRecordHead : Read RecordHead := do
  let offset ← Read.position
  let name ← Read.ulebText
  let hash ← Read.u64
  let size ← Read.u32
  return { offset, name, hash, size }

def readPadding (layout : MappingLayout) : Read Unit :=
  if layout.alignedRecords then Read.align 8 else pure ()

theorem read_record_eq (layout : MappingLayout) : readRecord layout =
    readRecordHead >>= fun head => get >>= fun cursor =>
      Read.bytes head.size.toNat >>= fun data => readPadding layout >>= fun _ =>
        pure ⟨head.offset, head.name, head.hash, .ofBytes data cursor.order⟩ := by
  simp only [readRecord, readRecordHead, readPadding, bind_assoc, pure_bind]
  cases layout.alignedRecords <;> rfl

theorem read_record_ran_iff (layout : MappingLayout) (cursor after : Cursor) (record : Record) :
    readRecord layout cursor = .ok record after ↔ ∃ head first data second,
      readRecordHead cursor = .ok head first ∧
      Read.bytes head.size.toNat first = .ok data second ∧
      readPadding layout second = .ok () after ∧
      record = ⟨head.offset, head.name, head.hash, .ofBytes data first.order⟩ := by
  rw [read_record_eq]
  constructor
  · intro ran
    obtain ⟨head, first, headRan, ran⟩ := (Read.bind_ran_iff _ _ _).mp ran
    obtain ⟨current, _, getRan, ran⟩ := (Read.bind_ran_iff _ _ _).mp ran
    cases getRan
    obtain ⟨data, second, dataRan, ran⟩ := (Read.bind_ran_iff _ _ _).mp ran
    obtain ⟨⟨⟩, third, paddingRan, same⟩ := (Read.bind_ran_iff _ _ _).mp ran
    obtain ⟨rfl, rfl⟩ := (Read.pure_ran_iff _ _).mp same
    exact ⟨head, first, data, second, headRan, dataRan, paddingRan, rfl⟩
  · rintro ⟨head, first, data, second, headRan, dataRan, paddingRan, rfl⟩
    rw [run_bind_of_ok headRan]
    change (Read.bytes head.size.toNat >>= _) first = _
    rw [run_bind_of_ok dataRan, run_bind_of_ok paddingRan]
    rfl

theorem read_record_head_ran (cursor after : Cursor) (head : RecordHead)
    (ran : readRecordHead cursor = .ok head after) :
    after.data = cursor.data ∧ after.order = cursor.order ∧ cursor.offset ≤ after.offset ∧
      placeAt? cursor.order cursor.data cursor.offset =
        some ⟨⟨head.name, head.hash⟩, after.offset, head.size.toNat⟩ := by
  obtain ⟨offset, first, positionRan, ran⟩ := (Read.bind_ran_iff _ _ _).mp ran
  rw [(Read.position_ran positionRan).2] at ran
  obtain ⟨name, second, nameRan, ran⟩ := (Read.bind_ran_iff _ _ _).mp ran
  obtain ⟨hash, third, hashRan, ran⟩ := (Read.bind_ran_iff _ _ _).mp ran
  obtain ⟨size, fourth, sizeRan, ran⟩ := (Read.bind_ran_iff _ _ _).mp ran
  obtain ⟨rfl, rfl⟩ := (Read.pure_ran_iff _ _).mp ran
  obtain ⟨nameLength, used, decoded, read, nameMoved⟩ := Read.uleb_text_ran nameRan
  obtain ⟨hashNumber, hashMoved⟩ := Read.u64_ran hashRan
  obtain ⟨sizeNumber, sizeMoved⟩ := Read.u32_ran sizeRan
  have sizeAt := nameMoved.trans hashMoved
  have moved := sizeAt.trans sizeMoved
  rw [nameMoved.number_at] at hashNumber
  rw [sizeAt.number_at, ← Nat.add_assoc] at sizeNumber
  refine ⟨moved.data, moved.order, by rw [moved.offset]; exact Nat.le_add_right _ _, ?_⟩
  rw [placeAt?, decoded]
  dsimp only
  rw [read, ← hashNumber, ← sizeNumber, UInt64.ofNat_toNat, moved.offset]
  simp only [Option.getD_some, Nat.add_assoc]

theorem read_padding_ran (layout : MappingLayout) (cursor after : Cursor)
    (ran : readPadding layout cursor = .ok () after) :
    after.data = cursor.data ∧ after.order = cursor.order ∧ after.offset =
      if layout.alignedRecords then alignUp cursor.offset 8 else cursor.offset := by
  rw [readPadding] at ran
  by_cases aligned : layout.alignedRecords
  · rw [if_pos aligned] at ran ⊢
    exact Read.align_eight_ran ran
  · rw [if_neg aligned] at ran ⊢
    obtain ⟨-, rfl⟩ := (Read.pure_ran_iff _ _).mp ran
    exact ⟨rfl, rfl, rfl⟩

theorem read_record_ran (layout : MappingLayout) (cursor after : Cursor) (record : Record)
    (ran : readRecord layout cursor = .ok record after) :
    after.data = cursor.data ∧ after.order = cursor.order ∧
      after.offset = recordEnd layout cursor.order cursor.data cursor.offset := by
  obtain ⟨head, first, body, second, headRan, bodyRan, paddingRan, -⟩ :=
    (read_record_ran_iff _ _ _ _).mp ran
  obtain ⟨headData, headOrder, -, place⟩ := read_record_head_ran _ _ _ headRan
  have moved := (Read.bytes_ran bodyRan).2.2
  obtain ⟨data, order, offset⟩ := read_padding_ran _ _ _ paddingRan
  refine ⟨data.trans (moved.data.trans headData), order.trans (moved.order.trans headOrder), ?_⟩
  rw [offset, record_end_eq layout _ _ _ _ place, moved.offset]

theorem read_magic_ran (cursor after : Cursor) (order : ByteOrder)
    (ran : readMagic cursor = .ok order after) :
    order = storedOrder cursor.data cursor.offset ∧ cursor.Moved 4 after := by
  obtain ⟨start, first, positionRan, rest⟩ := (Read.bind_ran_iff _ _ _).mp ran
  rw [(Read.position_ran positionRan).2] at rest
  obtain ⟨found, second, bytesRan, rest⟩ := (Read.bind_ran_iff _ _ _).mp rest
  obtain ⟨shape, -, moved⟩ := Read.bytes_ran bytesRan
  rw [storedOrder, ← shape]
  by_cases little : found = magic .little
  · rw [if_pos little] at rest ⊢
    obtain ⟨rfl, rfl⟩ := (Read.pure_ran_iff _ _).mp rest
    exact ⟨rfl, moved⟩
  · rw [if_neg little] at rest ⊢
    by_cases big : found = magic .big
    · rw [if_pos big] at rest
      obtain ⟨rfl, rfl⟩ := (Read.pure_ran_iff _ _).mp rest
      exact ⟨rfl, moved⟩
    · rw [if_neg big] at rest
      cases rest

theorem magic_yields {order stored : ByteOrder} {start : Nat} {rest : Bytes} :
    Read.Yields readMagic order start (magic stored) rest stored := by
  apply Read.bind_yields_nil Read.position_yields
  cases stored <;>
    exact Read.bind_yields_last (Read.bytes_yields_of_length rfl) (Read.pure_yields _)

structure PreambleAt (data : Bytes) (start : Nat) (preamble : Preamble) (after : Cursor) : Prop where
  version : Version.ofTag? ((storedOrder data start).numberAt data (start + 4) 4) =
    some preamble.version
  count : preamble.recordCount = (storedOrder data start).numberAt data (start + 8) 4
  sameData : after.data = data
  ordered : after.order = storedOrder data start
  placed : after.offset =
    alignUp (start + 16 + (storedOrder data start).numberAt data (start + 12) 4) 8

structure PreambleRun (cursor last : Cursor) where
  order : ByteOrder
  tag : UInt32
  version : Version
  count : UInt32
  size : UInt32
  table : Bytes
  names : List String
  afterMagic : Cursor
  afterTag : Cursor
  afterCount : Cursor
  afterSize : Cursor
  afterTable : Cursor
  magicRan : readMagic cursor = .ok order afterMagic
  tagRan : Read.u32 (afterMagic.withOrder order) = .ok tag afterTag
  required : Version.require (UInt64.ofNat tag.toNat) = .ok version
  countRan : Read.u32 afterTag = .ok count afterCount
  sizeRan : Read.u32 afterCount = .ok size afterSize
  tableRan : Read.bytes size.toNat afterSize = .ok table afterTable
  decoded : (Cursor.little table).read (readNames version.mappingLayout) = .ok names
  alignRan : Read.align 8 afterTable = .ok () last

def PreambleRun.preamble {cursor last : Cursor} (run : PreambleRun cursor last) : Preamble where
  version := run.version
  recordCount := run.count.toNat
  filenames := resolveNames run.version.mappingLayout run.names

theorem read_preamble_ran_iff (cursor last : Cursor) (preamble : Preamble) :
    readPreamble cursor = .ok preamble last ↔
      ∃ run : PreambleRun cursor last, preamble = run.preamble := by
  constructor
  · intro ran
    obtain ⟨start, first, positionRan, ran⟩ := (Read.bind_ran_iff _ _ _).mp ran
    obtain ⟨rfl, rfl⟩ := Read.position_ran positionRan
    obtain ⟨order, afterMagic, magicRan, ran⟩ := (Read.bind_ran_iff _ _ _).mp ran
    obtain ⟨⟨⟩, ordered, orderRan, ran⟩ := (Read.bind_ran_iff _ _ _).mp ran
    cases orderRan
    obtain ⟨tag, afterTag, tagRan, ran⟩ := (Read.bind_ran_iff _ _ _).mp ran
    obtain ⟨version, afterVersion, versionRan, ran⟩ := (Read.bind_ran_iff _ _ _).mp ran
    obtain ⟨required, rfl⟩ := (Read.of_except_ran_iff _ _).mp versionRan
    obtain ⟨count, afterCount, countRan, ran⟩ := (Read.bind_ran_iff _ _ _).mp ran
    obtain ⟨size, afterSize, sizeRan, ran⟩ := (Read.bind_ran_iff _ _ _).mp ran
    obtain ⟨tableOffset, atTable, placeRan, ran⟩ := (Read.bind_ran_iff _ _ _).mp ran
    obtain ⟨rfl, rfl⟩ := Read.position_ran placeRan
    obtain ⟨table, afterTable, tableRan, ran⟩ := (Read.bind_ran_iff _ _ _).mp ran
    obtain ⟨names, afterNames, namesRan, ran⟩ := (Read.bind_ran_iff _ _ _).mp ran
    obtain ⟨decoded, rfl⟩ := (Read.of_except_ran_iff _ _).mp namesRan
    obtain ⟨⟨⟩, final, alignRan, ran⟩ := (Read.bind_ran_iff _ _ _).mp ran
    obtain ⟨rfl, rfl⟩ := (Read.pure_ran_iff _ _).mp ran
    exact ⟨⟨order, tag, version, count, size, table, names, _, _, _, _, _, magicRan, tagRan,
      (map_error_ok_iff _ _ _).mp required, countRan, sizeRan, tableRan,
      (map_error_ok_iff _ _ _).mp decoded, alignRan⟩, rfl⟩
  · rintro ⟨run, rfl⟩
    have positionRan : Read.position cursor = .ok cursor.offset cursor := rfl
    have orderRan : (modify (·.withOrder run.order) : Read Unit) run.afterMagic =
        .ok () (run.afterMagic.withOrder run.order) := rfl
    have versionRan : Read.ofExcept ((Version.require (UInt64.ofNat run.tag.toNat)).mapError
        (·.atOffset (cursor.offset + 4))) run.afterTag = .ok run.version run.afterTag := by
      rw [run.required]
      rfl
    have placeRan : Read.position run.afterSize = .ok run.afterSize.offset run.afterSize := rfl
    have namesRan : Read.ofExcept (((Cursor.little run.table).read
        (readNames run.version.mappingLayout)).mapError (·.atOffset run.afterSize.offset))
          run.afterTable = .ok run.names run.afterTable := by
      rw [run.decoded]
      rfl
    rw [readPreamble, run_bind_of_ok positionRan, run_bind_of_ok run.magicRan,
      run_bind_of_ok orderRan, run_bind_of_ok run.tagRan, run_bind_of_ok versionRan,
      run_bind_of_ok run.countRan, run_bind_of_ok run.sizeRan, run_bind_of_ok placeRan,
      run_bind_of_ok run.tableRan, run_bind_of_ok namesRan, run_bind_of_ok run.alignRan]
    rfl

theorem read_preamble_ran (cursor after : Cursor) (preamble : Preamble)
    (ran : readPreamble cursor = .ok preamble after) :
    PreambleAt cursor.data cursor.offset preamble after := by
  obtain ⟨run, rfl⟩ := (read_preamble_ran_iff _ _ _).mp ran
  obtain ⟨stored, magicMoved⟩ := read_magic_ran _ _ _ run.magicRan
  obtain ⟨tagNumber, tagMoved⟩ := Read.u32_ran run.tagRan
  obtain ⟨countNumber, countMoved⟩ := Read.u32_ran run.countRan
  obtain ⟨sizeNumber, sizeMoved⟩ := Read.u32_ran run.sizeRan
  have upToSize := tagMoved.trans countMoved
  have upToTable := (upToSize.trans sizeMoved).trans (Read.bytes_ran run.tableRan).2.2
  obtain ⟨lastData, lastOrder, lastOffset⟩ := Read.align_eight_ran run.alignRan
  -- The numbers behind the magic are read in the byte order that it tells.
  have ordered : (run.afterMagic.withOrder run.order).order = storedOrder cursor.data cursor.offset :=
    stored
  have sameData : (run.afterMagic.withOrder run.order).data = cursor.data := magicMoved.data
  have moved : (run.afterMagic.withOrder run.order).offset = cursor.offset + 4 := magicMoved.offset
  rw [ordered, sameData, moved] at tagNumber
  rw [tagMoved.number_at, ordered, sameData, moved] at countNumber
  rw [upToSize.number_at, ordered, sameData, moved] at sizeNumber
  have tagFits : (UInt64.ofNat run.tag.toNat).toNat = run.tag.toNat :=
    UInt64.toNat_ofNat_of_lt' (Nat.lt_trans run.tag.toNat_lt_size (by decide))
  have required := run.required
  rw [Version.require_ok_iff, tagFits, tagNumber] at required
  refine ⟨required, countNumber, ?_, ?_, ?_⟩
  · rw [lastData, upToTable.data, sameData]
  · rw [lastOrder, upToTable.order, ordered]
  · have sizeAt : cursor.offset + 4 + (4 + 4) = cursor.offset + 12 := by omega
    rw [sizeAt] at sizeNumber
    rw [lastOffset, upToTable.offset, moved, sizeNumber]
    congr 1
    omega

theorem records_accounted (preamble : Preamble) (n : Nat) (cursor after : Cursor)
    (ended : (records preamble n cursor).outcome = .ok after) :
    (records preamble n cursor).entries.length = n ∧ after.data = cursor.data ∧
      after.order = cursor.order ∧ after.offset =
        recordsEnd preamble.version.mappingLayout cursor.order cursor.data n cursor.offset := by
  induction n generalizing cursor with
  | zero =>
      cases ended
      exact ⟨rfl, rfl, rfl, rfl⟩
  | succ n ih =>
      rw [records] at ended ⊢
      cases recordRead : readRecord preamble.version.mappingLayout cursor with
      | error failure left =>
          rw [recordRead] at ended
          cases ended
      | ok record rest =>
          rw [recordRead] at ended
          obtain ⟨count, data, order, offset⟩ := ih rest ended
          obtain ⟨restData, restOrder, restOffset⟩ := read_record_ran _ _ _ _ recordRead
          refine ⟨congrArg (· + 1) count, data.trans restData, order.trans restOrder, ?_⟩
          rw [offset, restData, restOrder, restOffset, recordsEnd]

theorem transcript_ended {cursor last : Cursor} (ended : (transcript cursor).outcome = .ok last) :
    ∃ preamble first, readPreamble cursor = .ok preamble first ∧
      transcript cursor = records preamble preamble.recordCount first := by
  rw [transcript] at ended ⊢
  cases ran : readPreamble cursor with
  | error failure left =>
      rw [ran] at ended
      cases ended
  | ok preamble first => exact ⟨preamble, first, rfl, rfl⟩

theorem sections_accounted (fuel : Nat) (cursor : Cursor)
    (ended : (sections fuel cursor).outcome = .ok ()) :
    (sections fuel cursor).entries.length =
      (declaredCounts cursor.data fuel cursor.offset).sum := by
  induction fuel generalizing cursor with
  | zero => rfl
  | succ fuel ih =>
      rw [sections, cursor.rest_eq] at ended ⊢
      rw [declaredCounts]
      by_cases zeros : (cursor.data.drop cursor.offset).all (· == 0)
      · rw [if_pos zeros, if_pos zeros]
        rfl
      · rw [if_neg zeros] at ended ⊢
        rw [if_neg zeros]
        cases alignRead : Read.align 8 cursor with
        | error failure left =>
            rw [alignRead] at ended
            cases ended
        | ok value aligned =>
            rw [alignRead] at ended
            obtain ⟨alignedData, -, alignedOffset⟩ := Read.align_eight_ran alignRead
            rw [← alignedOffset, ← alignedData]
            dsimp only at ended ⊢
            obtain ⟨last, recordsEnded, laterEnded⟩ := (Transcript.and_then_ok_iff _ _ _).mp ended
            obtain ⟨preamble, rest, preambleRead, listing⟩ := transcript_ended recordsEnded
            obtain ⟨version, count, sameData, ordered, placed⟩ := read_preamble_ran _ _ _ preambleRead
            rw [listing] at recordsEnded ⊢
            obtain ⟨listed, lastData, -, lastOffset⟩ := records_accounted _ _ _ _ recordsEnded
            rw [Transcript.and_then_ok _ _ _ recordsEnded, version, List.length_append, listed,
              ih last laterEnded]
            dsimp only
            rw [List.sum_cons, lastData, sameData, lastOffset, ordered, sameData, placed, count]

end Section

namespace Mappings

theorem parse_refines (data : Bytes) :
    Refines (fun policy => Mappings.parse policy data) Mappings.skipped :=
  (transcript data).settle_refines _ _ fun _ => rfl

theorem parse_accounts (data : Bytes) (mappings : Mappings)
    (parsed : parse .bestEffort data = .ok mappings) :
    mappings.functions.length + mappings.skipped.length =
      (Section.declaredCounts data data.length 0).sum := by
  rw [parse, bind_ok_iff] at parsed
  obtain ⟨⟨functions, skipped⟩, settled, same⟩ := parsed
  cases (pure_ok_iff _ _).mp same
  obtain ⟨total, ⟨⟩, ended⟩ := (transcript data).settle_length functions skipped settled
  rw [total]
  exact Section.sections_accounted data.length (Cursor.little data) ended

end Mappings

end ExecCounts
