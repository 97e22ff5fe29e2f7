import ExecCounts.Proofs.Raw.Declared
import ExecCounts.Proofs.Raw.Dump

set_option autoImplicit false

namespace ExecCounts.Raw

/-- What any raw profile says, read off its bytes by their positions. Nothing here depends on how
the file is read. -/
structure Stored where
  data : Bytes
  machine : Machine
  version : Version

namespace Stored

variable (stored : Stored)

def number (offset width : Nat) : Nat := stored.machine.order.numberAt stored.data offset width

def slice (start length : Nat) : Bytes := (stored.data.drop start).take length

section Sections

def field (field : RawField) : Nat :=
  if field ∈ stored.version.rawLayout.header then
    storedField stored.machine.order stored.data 8 stored.version.rawLayout.header field
  else 0

def recordsStart : Nat := stored.version.rawLayout.headerSize + stored.field .binaryIdsSize

def recordsLength : Nat := stored.field .dataSize * stored.machine.recordSize

def countersStart : Nat :=
  stored.recordsStart + stored.recordsLength + stored.field .paddingBytesBeforeCounters

def countersLength : Nat := stored.field .countersSize * 8

def namesStart : Nat :=
  stored.countersStart + stored.countersLength + stored.field .paddingBytesAfterCounters

def namesEnd : Nat := stored.namesStart + stored.field .namesSize

def names : Bytes := stored.slice stored.namesStart (stored.field .namesSize)

def blobsStart : Nat :=
  if stored.data.length = stored.namesEnd then stored.namesEnd else alignUp stored.namesEnd 8

end Sections

section Record

variable (index : Nat)

def recordStart : Nat := stored.recordsStart + index * stored.machine.recordSize

def countsStart : Nat := stored.recordStart index + 16 + 3 * stored.machine.pointer.size

def nameRef : Nat := stored.number (stored.recordStart index) 8

def hash : Nat := stored.number (stored.recordStart index + 8) 8

def counterPointer : Nat :=
  stored.number (stored.recordStart index + 16) stored.machine.pointer.size

def counterCount : Nat := stored.number (stored.countsStart index) 4

def siteCount : ValueKind → Nat
  | .indirectCallTarget => stored.number (stored.countsStart index + 4) 2
  | .memOpSize => stored.number (stored.countsStart index + 6) 2

/-- Where the counters of a record are in the counter section. The newest version stores the
distance from the record instead of an address. -/
def counterPlace : Nat :=
  let distance := if stored.version = .v14 then index * stored.machine.recordSize else 0
  (((stored.counterPointer index + distance : Nat) - stored.field .countersDelta : Int) %
    2 ^ 64).toNat

structure CountersInside : Prop where
  aligned : stored.counterPlace index % 8 = 0
  within : stored.counterPlace index + 8 * stored.counterCount index ≤ stored.countersLength

def counters : List Count :=
  (List.range (stored.counterCount index)).map fun number => UInt64.ofNat
    (stored.number (stored.countersStart + stored.counterPlace index + 8 * number) 8)

def hasSites : Bool := ValueKind.all.any fun kind => stored.siteCount index kind != 0

end Record

/-- The blobs follow each other in the order of the records that have one. -/
def blobStart : Nat → Nat
  | 0 => stored.blobsStart
  | index + 1 =>
      if stored.hasSites index then blobStart index + stored.number (blobStart index) 4
      else blobStart index

def blob (index : Nat) : Bytes :=
  stored.slice (stored.blobStart index) (stored.number (stored.blobStart index) 4)

def Values (index : Nat) (values : Option ValueProfile) : Prop :=
  if stored.hasSites index then
    ∃ found, values = some found ∧
      (Cursor.ofBytes (stored.blob index) stored.machine.order).read (Blob.decode none) = .ok found ∧
        ∀ kind, (found.sites kind).length = stored.siteCount index kind
  else values = none

end Stored

theorem subsection_ran {n : Nat} {cursor after piece : Cursor}
    (ran : subsection n cursor = .ok piece after) :
    piece = Cursor.ofBytes ((cursor.data.drop cursor.offset).take n) cursor.order ∧
      ((cursor.data.drop cursor.offset).take n).length = n ∧ cursor.Moved n after := by
  obtain ⟨current, middle, getRan, ran⟩ := (Read.bind_ran_iff _ _ _).mp ran
  cases getRan
  obtain ⟨taken, last, bytesRan, ran⟩ := (Read.bind_ran_iff _ _ _).mp ran
  obtain ⟨rfl, rfl⟩ := (Read.pure_ran_iff _ _).mp ran
  obtain ⟨rfl, length, moved⟩ := Read.bytes_ran bytesRan
  exact ⟨rfl, length, moved⟩

theorem section_size_ran {count itemSize size : Nat} {cursor after : Cursor}
    (ran : sectionSize count itemSize cursor = .ok size after) :
    size = count * itemSize ∧ cursor = after := by
  rw [sectionSize] at ran
  by_cases large : UInt64.size ≤ count * itemSize
  · rw [if_pos large] at ran
    cases ran
  · rw [if_neg large] at ran
    obtain ⟨rfl, rfl⟩ := (Read.pure_ran_iff _ _).mp ran
    exact ⟨rfl, rfl⟩

structure ContentsRun (machine : Machine) (cursor : Cursor) where
  word : UInt64
  version : Version
  header : Header
  ids : Cursor
  binaryIds : List Bytes
  records : Cursor
  counters : Cursor
  names : Cursor
  entries : List NameEntry
  blobs : Cursor
  afterMagic : Cursor
  afterWord : Cursor
  afterHeader : Cursor
  afterIds : Cursor
  afterRecords : Cursor
  atCounters : Cursor
  afterCounters : Cursor
  atNames : Cursor
  afterNames : Cursor
  magicRan : Read.skip 8 cursor = .ok () afterMagic
  wordRan : Read.u64 afterMagic = .ok word afterWord
  required : Version.require (Variant.ofWord word).1 = .ok version
  headerRan : readHeader version.rawLayout.header afterWord = .ok header afterHeader
  idsRan : subsection (header.value .binaryIdsSize) afterHeader = .ok ids afterIds
  recordsRan : subsection (header.value .dataSize * machine.recordSize) afterIds =
    .ok records afterRecords
  beforeRan : Read.skip (header.value .paddingBytesBeforeCounters) afterRecords = .ok () atCounters
  countersRan : subsection (header.value .countersSize * 8) atCounters = .ok counters afterCounters
  behindRan : Read.skip (header.value .paddingBytesAfterCounters) afterCounters = .ok () atNames
  namesRan : subsection (header.value .namesSize) atNames = .ok names afterNames
  namesRead : readNames names = .ok entries
  blobsFound : afterNames.isEmpty = true ∧ blobs = afterNames ∨
    afterNames.isEmpty = false ∧ Read.align 8 afterNames = .ok () blobs

def ContentsRun.contents {machine : Machine} {cursor : Cursor} (run : ContentsRun machine cursor) :
    Contents where
  machine := machine
  version := run.version
  variant := (Variant.ofWord run.word).2
  binaryIds := run.binaryIds
  recordsOffset := run.afterIds.offset
  recordCount := run.header.value .dataSize
  records := run.records
  counters := run.counters
  countersDelta := UInt64.ofNat (run.header.value .countersDelta)
  names := run.entries
  blobs := run.blobs

theorem contents_run_of_ran {machine : Machine} {cursor after : Cursor} {contents : Contents}
    (ran : readContents machine cursor = .ok contents after) :
    ∃ run : ContentsRun machine cursor, contents = run.contents := by
  rw [readContents] at ran
  obtain ⟨⟨⟩, afterMagic, magicRan, ran⟩ := (Read.bind_ran_iff _ _ _).mp ran
  obtain ⟨word, afterWord, wordRan, ran⟩ := (Read.bind_ran_iff _ _ _).mp ran
  obtain ⟨version, afterVersion, versionRan, ran⟩ := (Read.bind_ran_iff _ _ _).mp ran
  obtain ⟨required, rfl⟩ := (Read.of_except_ran_iff _ _).mp versionRan
  obtain ⟨header, afterHeader, headerRan, ran⟩ := (Read.bind_ran_iff _ _ _).mp ran
  by_cases unknown : lastValueKind < header.value .valueKindLast
  · rw [if_pos unknown] at ran
    cases ran
  rw [if_neg unknown] at ran
  obtain ⟨ids, afterIds, idsRan, ran⟩ := (Read.bind_ran_iff _ _ _).mp ran
  obtain ⟨binaryIds, afterBinaryIds, binaryRan, ran⟩ := (Read.bind_ran_iff _ _ _).mp ran
  obtain ⟨-, rfl⟩ := (Read.of_except_ran_iff _ _).mp binaryRan
  obtain ⟨recordsOffset, afterOffset, offsetRan, ran⟩ := (Read.bind_ran_iff _ _ _).mp ran
  cases offsetRan
  obtain ⟨recordsSize, afterSize, sizeRan, ran⟩ := (Read.bind_ran_iff _ _ _).mp ran
  obtain ⟨rfl, rfl⟩ := section_size_ran sizeRan
  obtain ⟨records, afterRecords, recordsRan, ran⟩ := (Read.bind_ran_iff _ _ _).mp ran
  obtain ⟨⟨⟩, atCounters, beforeRan, ran⟩ := (Read.bind_ran_iff _ _ _).mp ran
  obtain ⟨countersSize, afterCountersSize, countersSizeRan, ran⟩ := (Read.bind_ran_iff _ _ _).mp ran
  obtain ⟨rfl, rfl⟩ := section_size_ran countersSizeRan
  obtain ⟨counters, afterCounters, countersRan, ran⟩ := (Read.bind_ran_iff _ _ _).mp ran
  obtain ⟨⟨⟩, atNames, behindRan, ran⟩ := (Read.bind_ran_iff _ _ _).mp ran
  obtain ⟨namesOffset, afterNamesOffset, namesOffsetRan, ran⟩ := (Read.bind_ran_iff _ _ _).mp ran
  cases namesOffsetRan
  obtain ⟨names, afterNames, namesRan, ran⟩ := (Read.bind_ran_iff _ _ _).mp ran
  obtain ⟨entries, afterEntries, entriesRan, ran⟩ := (Read.bind_ran_iff _ _ _).mp ran
  obtain ⟨namesRead, rfl⟩ := (Read.of_except_ran_iff _ _).mp entriesRan
  obtain ⟨ended, afterEnded, endedRan, ran⟩ := (Read.bind_ran_iff _ _ _).mp ran
  cases endedRan
  have namesRead := (map_error_ok_iff _ _ _).mp namesRead
  cases ended : afterNames.isEmpty with
  | true =>
      rw [ended] at ran
      obtain ⟨rfl, -⟩ := (Read.pure_ran_iff _ _).mp ran
      exact ⟨{
        word, version, header, ids, binaryIds, records, counters, names, entries
        afterMagic, afterWord, afterHeader, afterIds, afterRecords, atCounters, afterCounters, atNames
        afterNames, magicRan, wordRan, headerRan, idsRan, recordsRan, beforeRan, countersRan, behindRan
        namesRan, namesRead
        blobs := afterNames
        required := (map_error_ok_iff _ _ _).mp required
        blobsFound := .inl ⟨ended, rfl⟩ }, rfl⟩
  | false =>
      rw [ended] at ran
      obtain ⟨⟨⟩, blobs, alignRan, ran⟩ := (Read.bind_ran_iff _ _ _).mp ran
      obtain ⟨rfl, -⟩ := (Read.pure_ran_iff _ _).mp ran
      exact ⟨{
        word, version, header, ids, binaryIds, records, counters, names, entries, blobs
        afterMagic, afterWord, afterHeader, afterIds, afterRecords, atCounters, afterCounters, atNames
        afterNames, magicRan, wordRan, headerRan, idsRan, recordsRan, beforeRan, countersRan, behindRan
        namesRan, namesRead
        required := (map_error_ok_iff _ _ _).mp required
        blobsFound := .inr ⟨ended, alignRan⟩ }, rfl⟩

structure Stored.At (stored : Stored) (cursor : Cursor) (offset : Nat) : Prop where
  data : cursor.data = stored.data
  order : cursor.order = stored.machine.order
  offset : cursor.offset = offset

theorem Stored.At.moved {stored : Stored} {cursor after : Cursor} {offset n : Nat}
    (here : stored.At cursor offset) (moved : cursor.Moved n after) : stored.At after (offset + n) where
  data := moved.data.trans here.data
  order := moved.order.trans here.order
  offset := by rw [moved.offset, here.offset]

theorem Stored.At.piece {stored : Stored} {cursor after piece : Cursor} {offset n : Nat}
    (here : stored.At cursor offset) (ran : subsection n cursor = .ok piece after) :
    piece = Cursor.ofBytes (stored.slice offset n) stored.machine.order ∧
      stored.At after (offset + n) := by
  obtain ⟨found, -, moved⟩ := subsection_ran ran
  rw [here.data, here.order, here.offset] at found
  exact ⟨found, here.moved moved⟩

section Header

variable {stored : Stored} {header : Header} {cursor after : Cursor} (here : stored.At cursor 16)
  (ran : readHeader stored.version.rawLayout.header cursor = .ok header after)

include here ran

theorem header_field (field : RawField) : header.value field = stored.field field := by
  rw [read_header_eq] at ran
  rw [Header.value, Stored.field]
  by_cases listed : field ∈ stored.version.rawLayout.header
  · have found := Read.fields_ran Read.u64 8 (fun _ _ _ => Read.u64_ran) _ _ _ _ ran field listed
    obtain ⟨word, present, number⟩ := Option.map_eq_some_iff.mp found
    rw [if_pos listed, present, Option.getD_some, number, here.data, here.order, here.offset]
    rfl
  · have missing : header.lookup field = none := by
      rw [List.lookup_eq_none_iff]
      intro pair member
      have key := List.mem_map_of_mem (f := Prod.fst) member
      rw [Read.fields_keys _ _ _ _ _ ran] at key
      exact bne_iff_ne.mpr fun same => listed (same ▸ key)
    rw [if_neg listed, missing]
    rfl

theorem header_moved : stored.At after stored.version.rawLayout.headerSize := by
  rw [read_header_eq] at ran
  exact here.moved (Read.fields_moved _ 8 (fun _ _ _ ran => (Read.u64_ran ran).2) _ _ _ _ ran)

end Header

structure Stored.Opens (stored : Stored) (contents : Contents) : Prop where
  machine : contents.machine = stored.machine
  version : contents.version = stored.version
  recordsOffset : contents.recordsOffset = stored.recordsStart
  recordCount : contents.recordCount = stored.field .dataSize
  records : contents.records =
    Cursor.ofBytes (stored.slice stored.recordsStart stored.recordsLength) stored.machine.order
  counters : contents.counters =
    Cursor.ofBytes (stored.slice stored.countersStart stored.countersLength) stored.machine.order
  countersDelta : contents.countersDelta.toNat = stored.field .countersDelta
  names : readNames (Cursor.ofBytes stored.names stored.machine.order) = .ok contents.names
  blobs : stored.At contents.blobs stored.blobsStart
  within : stored.namesEnd ≤ stored.data.length

section Opened

variable {data : Bytes} {machine : Machine} (run : ContentsRun machine (Cursor.ofBytes data machine.order))

def ContentsRun.stored : Stored := ⟨data, machine, run.version⟩

theorem run_word : run.stored.At run.afterWord 16 :=
  have start : run.stored.At (Cursor.ofBytes data machine.order) 0 := ⟨rfl, rfl, rfl⟩
  (start.moved (Read.skip_ran run.magicRan)).moved (Read.u64_ran run.wordRan).2

theorem run_header (field : RawField) : run.header.value field = run.stored.field field :=
  header_field (run_word run) run.headerRan field

theorem run_records : run.stored.At run.afterIds run.stored.recordsStart := by
  have ids := ((header_moved (run_word run) run.headerRan).piece run.idsRan).2
  rwa [run_header] at ids

theorem run_counters : run.stored.At run.atCounters run.stored.countersStart := by
  have records := ((run_records run).piece run.recordsRan).2
  have counters := records.moved (Read.skip_ran run.beforeRan)
  rwa [run_header, run_header] at counters

theorem run_names : run.stored.At run.atNames run.stored.namesStart := by
  have counters := ((run_counters run).piece run.countersRan).2
  have names := counters.moved (Read.skip_ran run.behindRan)
  rwa [run_header, run_header] at names

theorem run_names_end : run.stored.At run.afterNames run.stored.namesEnd := by
  have ended := ((run_names run).piece run.namesRan).2
  rwa [run_header] at ended

theorem run_blobs : run.stored.At run.blobs run.stored.blobsStart := by
  have here := run_names_end run
  have within := run.afterNames.offset_le
  have ended : run.afterNames.isEmpty = true ↔ run.stored.data.length = run.stored.namesEnd := by
    rw [Cursor.isEmpty, List.isEmpty_iff, run.afterNames.rest_eq, List.drop_eq_nil_iff, here.data,
      here.offset]
    rw [here.data, here.offset] at within
    omega
  rw [Stored.blobsStart]
  obtain ⟨nothing, same⟩ | ⟨more, aligned⟩ := run.blobsFound
  · rw [if_pos (ended.mp nothing), same]
    exact here
  · have unfinished : ¬ run.stored.data.length = run.stored.namesEnd := fun same => by
      rw [ended.mpr same] at more
      cases more
    obtain ⟨data, order, moved⟩ := Read.align_eight_ran aligned
    rw [if_neg unfinished, ← here.offset]
    exact ⟨data.trans here.data, order.trans here.order, moved⟩

theorem run_opens : run.stored.Opens run.contents where
  machine := rfl
  version := rfl
  recordsOffset := (run_records run).offset
  recordCount := run_header run _
  records := by
    have found := ((run_records run).piece run.recordsRan).1
    rwa [run_header] at found
  counters := by
    have found := ((run_counters run).piece run.countersRan).1
    rwa [run_header] at found
  countersDelta := by
    rw [← run_header]
    exact UInt64.toNat_ofNat_of_lt' (UInt64.toNat_lt_size _)
  names := by
    have found := ((run_names run).piece run.namesRan).1
    rw [run_header] at found
    rw [Stored.names, ← found]
    exact run.namesRead
  blobs := run_blobs run
  within := by
    have here := run_names_end run
    have bound := run.afterNames.offset_le
    rwa [here.offset, here.data] at bound

end Opened

end ExecCounts.Raw
