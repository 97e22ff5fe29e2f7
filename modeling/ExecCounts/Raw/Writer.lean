import ExecCounts.Chunk
import ExecCounts.Raw.Layout
import ExecCounts.Value.Blob

set_option autoImplicit false

namespace ExecCounts.Raw

def writtenMachine : Machine := ⟨.little, .eight⟩

def countersAddress : Nat := 0x10000

def namesAddress : Nat := 0x800000

def isWritableName (name : String) : Bool :=
  !(Utf8.bytes name).isEmpty && !(Utf8.bytes name).contains nameSeparator

def joinNames (names : List String) : Bytes := [nameSeparator].intercalate (names.map Utf8.bytes)

def encodeNames (deflate : Bytes → Bytes) (compress : Bool) (names : List String) : Bytes :=
  if names.isEmpty then [] else Chunk.writeWith deflate compress (joinNames names)

def encodeBinaryIds (ids : List Bytes) : Bytes :=
  ids.flatMap fun id => Bytes.padTo 8 (le64 id.length ++ id)

def encodeSiteCount (values : ValueProfile) (kind : ValueKind) : Except Failure Bytes :=
  let count := (values.sites kind).length
  if count < UInt16.size then .ok (le16 count)
  else
    .error (.because .writeFailed (Numeral.decimal count ++ " " ++ kind.name ++ " sites"))

def encodeValues : Option ValueProfile → Except Failure (Bytes × Bytes)
  | none => .ok (le16 0 ++ le16 0, [])
  | some values => do
      let counts ← ValueKind.all.mapM (encodeSiteCount values)
      let blob ← if values.isEmpty then pure [] else Blob.encode values
      return (counts.flatten, blob)

def counterPointer (layout : RawLayout) (delta index before : Nat) : Nat :=
  if layout.relativeCounters then delta + 8 * before - index * writtenMachine.recordSize
  else countersAddress + 8 * before

def encodeRecord (layout : RawLayout) (names : List String) (delta index before : Nat)
    (record : FunctionRecord) : Except Failure (Bytes × Bytes) := do
  let (siteCounts, blob) ← encodeValues record.values
  if UInt32.size ≤ record.counters.length then throw (.because .writeFailed "too many counters")
  let fixed := le64 (NamePool.offset 1 record.name names) ++ le64 record.hash.toNat ++
    le64 (counterPointer layout delta index before) ++ le64 0 ++ le64 0 ++
    le32 record.counters.length
  return (fixed ++ siteCounts, blob)

def encodeRecords (layout : RawLayout) (names : List String) (delta : Nat) :
    Nat → Nat → List FunctionRecord → Except Failure (Bytes × Bytes)
  | _, _, [] => .ok ([], [])
  | index, before, record :: rest => do
      let (data, blob) ←
        (encodeRecord layout names delta index before record).mapError (·.inFunction record.id)
      let (moreData, moreBlobs) ←
        encodeRecords layout names delta (index + 1) (before + record.counters.length) rest
      return (data ++ moreData, blob ++ moreBlobs)

/-- What readers subtract from counter pointers: the distance from the first data record to the
first counter, or the address of the counters. -/
def countersDelta (layout : RawLayout) (recordCount : Nat) : Nat :=
  if layout.relativeCounters then recordCount * writtenMachine.recordSize else countersAddress

structure Sizes where
  binaryIds : Nat
  records : Nat
  counters : Nat
  names : Nat
deriving DecidableEq, Repr

def fieldValue (layout : RawLayout) (sizes : Sizes) : RawField → Nat
  | .binaryIdsSize => sizes.binaryIds
  | .dataSize => sizes.records
  | .paddingBytesBeforeCounters => 0
  | .countersSize => sizes.counters
  | .paddingBytesAfterCounters => 0
  | .namesSize => sizes.names
  | .countersDelta => countersDelta layout sizes.records
  | .namesDelta => namesAddress
  | .valueKindLast => lastValueKind

def storedNames (profile : Profile) : List String :=
  NamePool.distinct (profile.records.map FunctionRecord.name)

/-- Every name is stored once, counters are stored in the order of the records, and only records
with value sites have a blob. -/
def writeWith (deflate : Bytes → Bytes) (version : Version) (compress : Bool) (profile : Profile) :
    Except Failure Bytes := do
  let layout := version.rawLayout
  if let some record := profile.records.find? fun record => !isWritableName record.name then
    throw ((Failure.because .writeFailed
      "function name cannot be stored in a raw profile").inFunction record.id)
  let names := storedNames profile
  let nameSection := encodeNames deflate compress names
  let binaryIds := if layout.hasBinaryIds then encodeBinaryIds profile.binaryIds else []
  let counters := profile.records.flatMap FunctionRecord.counters
  let sizes : Sizes := {
    binaryIds := binaryIds.length
    records := profile.records.length
    counters := counters.length
    names := nameSection.length }
  let delta := countersDelta layout profile.records.length
  let (data, blobs) ← encodeRecords layout names delta 0 0 profile.records
  let word := profile.variant.word (UInt64.ofNat version.tag)
  let body := writtenMachine.magicBytes ++ le64 word.toNat ++
    layout.header.flatMap (fun field => le64 (fieldValue layout sizes field)) ++ binaryIds ++ data ++
    counters.flatMap (fun count => le64 count.toNat) ++ nameSection
  return Bytes.padTo 8 body ++ blobs

def write : Version → Bool → Profile → Except Failure Bytes := writeWith Zlib.deflate

end ExecCounts.Raw
