import ExecCounts.Crc32
import ExecCounts.Profile
import ExecCounts.Value.Blob

/-!
Reading indexed profiles, whose records can be looked up by hash without reading all of them.

    magic, version, header fields
    hash table       number of buckets, offset of each bucket's chain or zero
    chains           number of entries, then hash and record offset of each
    records          name offset and length, hash, counter index and count, value offset and length
    counters
    value profiles   blobs
    names

All numbers are little-endian. Offsets in the header and in chains count from the start of the file,
offsets in records from the start of the section they point into. Opening a file checks the header,
the checksum and all chains; a record is only looked at when it is asked for.
-/

set_option autoImplicit false

namespace ExecCounts.Indexed

def magic : Nat := 0x8169666f72706cff

def isIndexed (data : Bytes) : Bool := data.take 8 == le64 magic

def corrupt (detail : String) : Failure := .because .corruptIndex detail

structure Sections where
  hashTable : Nat
  records : Nat
  counters : Nat
  valueProfiles : Option Nat
  names : Nat
deriving DecidableEq, Repr

namespace Sections

def countersEnd (sections : Sections) : Nat := sections.valueProfiles.getD sections.names

end Sections

/-- An indexed profile whose hash table is known to be sound. -/
structure File where
  data : Bytes
  version : Version
  variant : Variant
  sections : Sections
  bucketCount : Nat
  recordCount : Nat
deriving Repr

structure ChainEntry where
  hash : UInt64
  index : Nat
deriving DecidableEq, Repr

structure Row where
  nameOffset : UInt64
  nameLength : UInt32
  hash : UInt64
  counterIndex : UInt64
  counterCount : UInt32
  valueOffset : UInt64
  valueLength : UInt32
deriving DecidableEq, Repr

namespace File

def layout (file : File) : IndexedLayout := file.version.indexedLayout

def bucketOffset (file : File) (bucket : Nat) : Nat := file.sections.hashTable + 8 + 8 * bucket

def rowOffset (file : File) (index : Nat) : Nat :=
  file.sections.records + index * file.layout.recordSize

def bucketOf (file : File) (hash : UInt64) : Nat := hash.toNat % file.bucketCount

def readAt {α : Type} (file : File) (offset : Nat) (value : Read α) : Except Failure α :=
  (Cursor.little file.data).read do
    Read.seek offset
    value

def indexAt? (file : File) (offset : Nat) : Option Nat :=
  let relative := offset - file.sections.records
  let index := relative / file.layout.recordSize
  if file.sections.records ≤ offset ∧ relative % file.layout.recordSize = 0 ∧
      index < file.recordCount then
    some index
  else none

def chainEntry (file : File) (bucket : Nat) : Read ChainEntry := do
  let hash ← Read.u64
  let offset := (← Read.uint file.layout.offsetWidth).toNat
  if file.bucketOf hash ≠ bucket then
    let detail := "hash " ++ Numeral.hex hash.toNat ++ " does not belong into bucket " ++
      Numeral.decimal bucket
    throw ((corrupt detail).atOffset (file.bucketOffset bucket))
  match file.indexAt? offset with
  | some index => return { hash, index }
  | none =>
      let detail := "record offset " ++ Numeral.hex offset ++ " of hash " ++
        Numeral.hex hash.toNat ++ " is not a record"
      throw ((corrupt detail).atOffset (file.bucketOffset bucket))

def chainAt (file : File) (bucket offset : Nat) : Read (List ChainEntry) := do
  let limit := file.sections.records
  if offset < file.bucketOffset file.bucketCount ∨ limit < offset + 4 then
    let detail := "chain of bucket " ++ Numeral.decimal bucket ++ " at " ++ Numeral.hex offset ++
      " is outside of the hash table"
    throw ((corrupt detail).atOffset (file.bucketOffset bucket))
  Read.seek offset
  let count := (← Read.u32).toNat
  if limit - (offset + 4) < count * file.layout.chainEntrySize then
    let detail := "chain of bucket " ++ Numeral.decimal bucket ++ " with " ++
      Numeral.decimal count ++ " entries exceeds the hash table"
    throw ((corrupt detail).atOffset (file.bucketOffset bucket))
  times count (file.chainEntry bucket)

def chain (file : File) (bucket : Nat) : Except Failure (List ChainEntry) :=
  file.readAt (file.bucketOffset bucket) do
    let offset := (← Read.u64).toNat
    if offset = 0 then return []
    else file.chainAt bucket offset

def checkChains (file : File) : List Nat → Except Failure Unit
  | [] => .ok ()
  | bucket :: rest => do
      let _ ← file.chain bucket
      file.checkChains rest

def readRow (layout : IndexedLayout) : Read Row := do
  let nameOffset ← Read.uint layout.offsetWidth
  let nameLength ← Read.u32
  let hash ← Read.u64
  let counterIndex ← Read.uint layout.offsetWidth
  let counterCount ← Read.u32
  if layout.hasValueProfiles then
    let valueOffset ← Read.uint layout.offsetWidth
    let valueLength ← Read.u32
    return { nameOffset, nameLength, hash, counterIndex, counterCount, valueOffset, valueLength }
  else
    return { nameOffset, nameLength, hash, counterIndex, counterCount, valueOffset := 0,
             valueLength := 0 }

def row (file : File) (index : Nat) : Except Failure Row :=
  file.readAt (file.rowOffset index) (readRow file.layout)

def slice (file : File) (what : String) (start stop offset length : Nat) : Except Failure Bytes :=
  if offset + length ≤ stop - start then
    .ok ((file.data.drop (start + offset)).take length)
  else
    .error (corrupt (what ++ " at " ++ Numeral.hex offset ++ " with length " ++
      Numeral.decimal length ++ " is outside of its section"))

def name (file : File) (row : Row) : Except Failure String := do
  let bytes ← file.slice "name" file.sections.names file.data.length row.nameOffset.toNat
    row.nameLength.toNat
  match Utf8.text? bytes with
  | some name => return name
  | none => throw (.because .invalidEncoding "function name is not valid UTF-8")

def counters (file : File) (row : Row) : Except Failure (List Count) := do
  let width := file.layout.counterWidth
  let offset := row.counterIndex.toNat * width.size
  if UInt64.size ≤ offset then throw (corrupt "counter index overflows")
  let count := row.counterCount.toNat
  let bytes ← file.slice "counters" file.sections.counters file.sections.countersEnd offset
    (count * width.size)
  (Cursor.little bytes).read (times count (Read.uint width))

def values (file : File) (row : Row) : Except Failure (Option ValueProfile) :=
  match file.sections.valueProfiles with
  | none => .ok none
  | some start =>
      if row.valueLength = 0 then .ok none
      else do
        let bytes ← file.slice "value profile" start file.sections.names row.valueOffset.toNat
          row.valueLength.toNat
        (Cursor.little bytes).read do
          let blob ← Blob.frame
          if !(← Read.atEnd) then
            throw (corrupt "value profile is shorter than its record declares")
          return some (← Read.ofExcept (blob.read (Blob.decode none)))

def record (file : File) (index : Nat) : Except Failure FunctionRecord := do
  let offset := file.rowOffset index
  let row ← file.row index
  let name ← (file.name row).mapError (·.atOffset offset)
  let context (failure : Failure) := (failure.inFunction ⟨name, row.hash⟩).atOffset offset
  let counters ← (file.counters row).mapError context
  let values ← (file.values row).mapError context
  return { name, hash := row.hash, counters, values }

def lookup (file : File) (hash : UInt64) : Except Failure (List FunctionRecord) := do
  let entries ← file.chain (file.bucketOf hash)
  (entries.filter (·.hash == hash)).mapM fun entry => file.record entry.index

def get? (file : File) (id : FunctionId) : Except Failure (Option FunctionRecord) := do
  return (← file.lookup id.hash).find? (·.name == id.name)

def records (file : File) : List (Except Failure FunctionRecord) :=
  (List.range file.recordCount).map file.record

def transcript (file : File) : Transcript FunctionRecord Unit := ⟨file.records, .ok ()⟩

def toProfile (policy : Policy) (file : File) : Except Failure Profile := do
  let (records, skipped) ← file.transcript.settle policy
  return {
    format := .indexed
    version := some file.version
    variant := file.variant
    records
    binaryIds := []
    skipped }

end File

abbrev Header := List (IndexedField × UInt64)

namespace Header

def value? (header : Header) (field : IndexedField) : Option Nat :=
  (header.lookup field).map UInt64.toNat

def value (header : Header) (field : IndexedField) : Nat := (header.value? field).getD 0

def sections (header : Header) : Sections where
  hashTable := header.value .hashTableOffset
  records := header.value .recordsOffset
  counters := header.value .countersOffset
  valueProfiles := header.value? .valueProfileOffset
  names := header.value .namesOffset

def read (width : Width) : List IndexedField → Read Header
  | [] => pure []
  | field :: fields => do
      let value ← Read.uint width
      return (field, value) :: (← read width fields)

end Header

def landmarks (headerSize : Nat) (sections : Sections) (size : Nat) : List (String × Nat) :=
  [("header", headerSize), ("hash table", sections.hashTable), ("records", sections.records),
    ("counters", sections.counters)] ++
    (sections.valueProfiles.map fun offset => ("value profiles", offset)).toList ++
    [("names", sections.names), ("end of file", size)]

def checkOrder : String × Nat → List (String × Nat) → Except Failure Unit
  | _, [] => .ok ()
  | before, place :: rest =>
      if place.2 < before.2 then
        .error (corrupt (place.1 ++ " section at " ++ Numeral.hex place.2 ++ " precedes " ++
          before.1 ++ " at " ++ Numeral.hex before.2))
      else checkOrder place rest

def isPowerOfTwo (n : Nat) : Bool := 1 <<< n.log2 == n

def checkSum (header : Header) (rest : Bytes) : Except Failure Unit :=
  match header.value? .checksum with
  | none => .ok ()
  | some expected =>
      let actual := (crc32 rest).toNat
      if actual = expected then .ok ()
      else
        .error (corrupt ("checksum mismatch: expected " ++ Numeral.hex8 expected ++
          ", computed " ++ Numeral.hex8 actual))

def readFile : Read File := do
  if (← Read.u64).toNat ≠ magic then throw (Failure.atOffset 0 { kind := .badMagic })
  let (tag, variant) := Variant.ofWord (← Read.u64)
  let version ← Read.ofExcept ((Version.require tag).mapError (·.atOffset 8))
  let layout := version.indexedLayout
  let header ← Header.read layout.offsetWidth layout.header
  let headerSize ← Read.position
  let hashType := header.value .hashType
  if hashType ≠ 0 then
    throw ((Failure.because .invalidEncoding
      s!"unknown hash type {Numeral.decimal hashType}").atOffset 16)
  Read.ofExcept (checkSum header (← get).rest)
  let sections := header.sections
  let data := (← get).data
  Read.ofExcept (checkOrder ("start", 0) (landmarks headerSize sections data.length))
  let tableSize := sections.counters - sections.records
  if tableSize % layout.recordSize ≠ 0 then
    let detail := "record table of " ++ Numeral.decimal tableSize ++
      " bytes is not a multiple of " ++ Numeral.decimal layout.recordSize
    throw ((corrupt detail).atOffset sections.records)
  Read.seek sections.hashTable
  let bucketCount := (← Read.u64).toNat
  if !isPowerOfTwo bucketCount || sections.records < sections.hashTable + 8 + 8 * bucketCount then
    throw ((corrupt s!"invalid bucket count {Numeral.decimal bucketCount}").atOffset
      sections.hashTable)
  return {
    data, version, variant, sections, bucketCount
    recordCount := tableSize / layout.recordSize }

def openFile (data : Bytes) : Except Failure File := do
  let file ← (Cursor.little data).read readFile
  file.checkChains (List.range file.bucketCount)
  return file

def parse (policy : Policy) (data : Bytes) : Except Failure Profile := do
  (← openFile data).toProfile policy

end ExecCounts.Indexed
