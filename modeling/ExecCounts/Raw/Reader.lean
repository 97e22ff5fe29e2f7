import ExecCounts.Chunk
import ExecCounts.Parts
import ExecCounts.Raw.Layout
import ExecCounts.Value.Blob

set_option autoImplicit false

namespace ExecCounts.Raw

structure NameEntry where
  offset : Nat
  name : String
deriving DecidableEq, Repr

def nameEntries : Nat → List Bytes → Except Failure (List NameEntry)
  | _, [] => .ok []
  | start, part :: rest =>
      if part.isEmpty then nameEntries (start + 1) rest
      else match Utf8.text? part with
        | some name => (⟨start, name⟩ :: ·) <$> nameEntries (start + part.length + 1) rest
        | none => .error (.because .invalidEncoding "function name is not valid UTF-8")

/-- The names of at most `fuel` chunks, up to trailing zeros. Positions count from the start of the
first chunk's payload. -/
def nameChunks : Nat → Nat → Read (List NameEntry)
  | 0, _ => pure []
  | fuel + 1, base => do
      if (← get).rest.all (· == 0) then return []
      let chunk ← Chunk.read
      let entries ← Read.ofExcept (nameEntries base (parts nameSeparator chunk))
      return entries ++ (← nameChunks fuel (base + chunk.length))

def readNames (names : Cursor) : Except Failure (List NameEntry) :=
  names.read (nameChunks names.data.length 0)

def binaryIds : Nat → Read (List Bytes)
  | 0 => pure []
  | fuel + 1 => do
      if ← Read.atEnd then return []
      let size ← Read.u64
      let id ← Read.bytes size.toNat
      Read.align 8
      return id :: (← binaryIds fuel)

abbrev Header := List (RawField × UInt64)

def Header.value (header : Header) (field : RawField) : Nat :=
  ((header.lookup field).getD 0).toNat

def readHeader : List RawField → Read Header
  | [] => pure []
  | field :: fields => do
      let value ← Read.u64
      return (field, value) :: (← readHeader fields)

def sectionSize (count itemSize : Nat) : Read Nat := do
  if UInt64.size ≤ count * itemSize then
    throw ((Failure.because .truncatedInput
      s!"{Numeral.decimal count} items exceed address space").atOffset (← Read.position))
  return count * itemSize

structure DataRecord where
  nameRef : UInt64
  hash : UInt64
  counterPointer : UInt64
  counterCount : UInt32
  callSites : UInt16
  memOpSites : UInt16
deriving DecidableEq, Repr

namespace DataRecord

def read (pointer : Width) : Read DataRecord := do
  let nameRef ← Read.u64
  let hash ← Read.u64
  let counterPointer ← Read.uint pointer
  let _ ← Read.uint pointer
  let _ ← Read.uint pointer
  let counterCount ← Read.u32
  let callSites ← Read.u16
  let memOpSites ← Read.u16
  Read.align 8
  return { nameRef, hash, counterPointer, counterCount, callSites, memOpSites }

def siteCount (record : DataRecord) : ValueKind → Nat
  | .indirectCallTarget => record.callSites.toNat
  | .memOpSize => record.memOpSites.toNat

def hasSites (record : DataRecord) : Bool :=
  ValueKind.all.any fun kind => record.siteCount kind != 0

end DataRecord

structure Contents where
  machine : Machine
  version : Version
  variant : Variant
  binaryIds : List Bytes
  recordsOffset : Nat
  recordCount : Nat
  records : Cursor
  counters : Cursor
  countersDelta : UInt64
  names : List NameEntry
  blobs : Cursor

def subsection (n : Nat) : Read Cursor := do
  let order := (← get).order
  return .ofBytes (← Read.bytes n) order

def readContents (machine : Machine) : Read Contents := do
  Read.skip 8
  let (tag, variant) := Variant.ofWord (← Read.u64)
  let version ← Read.ofExcept ((Version.require tag).mapError (·.atOffset 8))
  let header ← readHeader version.rawLayout.header
  let lastKind := header.value .valueKindLast
  if lastValueKind < lastKind then
    throw ((Failure.because .invalidEncoding
      s!"unknown value kind {Numeral.decimal lastKind}").atOffset ((← Read.position) - 8))
  let idSection ← subsection (header.value .binaryIdsSize)
  let ids ← Read.ofExcept (idSection.read (binaryIds idSection.data.length))
  let recordsOffset ← Read.position
  let recordCount := header.value .dataSize
  let records ← subsection (← sectionSize recordCount machine.recordSize)
  Read.skip (header.value .paddingBytesBeforeCounters)
  let counters ← subsection (← sectionSize (header.value .countersSize) 8)
  Read.skip (header.value .paddingBytesAfterCounters)
  let namesOffset ← Read.position
  let nameSection ← subsection (header.value .namesSize)
  let names ← Read.ofExcept ((readNames nameSection).mapError (·.orAtOffset namesOffset))
  if !(← Read.atEnd) then Read.align 8
  return {
    machine, version, variant, recordsOffset, recordCount, records, counters, names
    binaryIds := ids
    countersDelta := UInt64.ofNat (header.value .countersDelta)
    blobs := ← get }

namespace Contents

def name? (contents : Contents) (nameRef : UInt64) : Option String :=
  (contents.names.find? fun entry => entry.offset == nameRef.toNat).map NameEntry.name

def counterOffset (contents : Contents) (index : Nat) (record : DataRecord) : UInt64 :=
  let pointer :=
    if contents.version.rawLayout.relativeCounters then
      record.counterPointer + UInt64.ofNat (index * contents.machine.recordSize)
    else record.counterPointer
  pointer - contents.countersDelta

def counters? (contents : Contents) (index : Nat) (record : DataRecord) :
    Except Failure (List Count) :=
  let offset := (contents.counterOffset index record).toNat
  let count := record.counterCount.toNat
  if offset % 8 = 0 ∧ offset + 8 * count ≤ contents.counters.data.length then
    contents.counters.read do
      Read.seek offset
      times count Read.u64
  else
    let detail := Numeral.decimal count ++ " counters at offset " ++ Numeral.hex offset ++
      " are outside of the counter section"
    .error (.because .corruptIndex detail)

/-- A record whose name or counters cannot be found concerns a single function, and so does a value
profile that does not fit its record. Every other failure makes the whole profile unreadable. -/
def resolve (contents : Contents) (index : Nat) (record : DataRecord) (blob : Option Cursor) :
    Except Failure FunctionRecord :=
  match contents.name? record.nameRef with
  | none =>
      let detail := "name reference " ++ Numeral.hex record.nameRef.toNat ++
        " of function with hash " ++ Numeral.hex record.hash.toNat ++ " is not a name"
      .error (.because .corruptIndex detail)
  | some name =>
      let resolved : Except Failure FunctionRecord := do
        let counters ← contents.counters? index record
        match blob with
        | none => return { name, hash := record.hash, counters, values := none }
        | some blob =>
            let values ← blob.read (Blob.decode (some record.siteCount))
            return { name, hash := record.hash, counters, values := some values }
      resolved.mapError (·.inFunction ⟨name, record.hash⟩)

def nextBlob (record : DataRecord) : Read (Option Cursor) :=
  if record.hasSites then some <$> Blob.frame else pure none

/-- The data records from the given index on. Every record takes the next blob if it has value
sites, whether the record can be resolved or not. -/
def functions (contents : Contents) : Nat → Nat → Cursor → Cursor → Transcript FunctionRecord Unit
  | 0, _, _, _ => .done ()
  | count + 1, index, records, blobs =>
      match DataRecord.read contents.machine.pointer records with
      | .error failure _ => .stop failure
      | .ok record records =>
          match nextBlob record blobs with
          | .error failure _ => .stop failure
          | .ok blob blobs =>
              let offset := contents.recordsOffset + index * contents.machine.recordSize
              .cons ((contents.resolve index record blob).mapError (·.atOffset offset))
                (functions contents count (index + 1) records blobs)

def transcript (contents : Contents) : Transcript FunctionRecord Unit :=
  contents.functions contents.recordCount 0 contents.records contents.blobs

end Contents

def contents (data : Bytes) : Except Failure Contents :=
  match Machine.detect? data with
  | some machine => (Cursor.ofBytes data machine.order).read (readContents machine)
  | none =>
      if data.length < 8 then .error (Failure.atOffset 0 { kind := .truncatedInput })
      else .error (Failure.atOffset 0 { kind := .badMagic })

def parse (policy : Policy) (data : Bytes) : Except Failure Profile := do
  let contents ← contents data
  let (records, skipped) ← contents.transcript.settle policy
  return {
    format := .raw
    version := some contents.version
    variant := contents.variant
    records
    binaryIds := contents.binaryIds
    skipped }

end ExecCounts.Raw
