import ExecCounts.Indexed.Reader

set_option autoImplicit false

namespace ExecCounts.Indexed

def encodeUint (width : Width) (n : Nat) : Except Failure Bytes :=
  match width with
  | .eight => .ok (le64 n)
  | .four =>
      if n < UInt32.size then .ok (le32 n)
      else .error (.because .writeFailed s!"{Numeral.decimal n} does not fit into 32 bits")

def bucketCountFor (recordCount : Nat) : Nat := (max recordCount 1).nextPowerOfTwo

def chainFor (bucketCount : Nat) (records : List FunctionRecord) (bucket : Nat) :
    List ChainEntry :=
  let entries := records.zipIdx.map fun (record, index) => (⟨record.hash, index⟩ : ChainEntry)
  entries.filter fun entry => entry.hash.toNat % bucketCount == bucket

def chainSize (layout : IndexedLayout) (chain : List ChainEntry) : Nat :=
  if chain.isEmpty then 0 else 4 + chain.length * layout.chainEntrySize

/-- Where chains that follow each other start; zero stands for an empty chain. -/
def chainOffsets (layout : IndexedLayout) : Nat → List (List ChainEntry) → List Nat
  | _, [] => []
  | start, chain :: rest =>
      (if chain.isEmpty then 0 else start) ::
        chainOffsets layout (start + chainSize layout chain) rest

def encodeChain (layout : IndexedLayout) (recordsOffset : Nat) (chain : List ChainEntry) :
    Except Failure Bytes :=
  if chain.isEmpty then .ok []
  else do
    let entries ← chain.mapM fun entry => do
      let offset ← encodeUint layout.offsetWidth (recordsOffset + entry.index * layout.recordSize)
      return le64 entry.hash.toNat ++ offset
    return le32 chain.length ++ entries.flatten

def encodeBlob (layout : IndexedLayout) (record : FunctionRecord) : Except Failure Bytes :=
  match record.values with
  | none => .ok []
  | some values =>
      if values.isEmpty || !layout.hasValueProfiles then .ok []
      else (Blob.encode values).mapError (·.inFunction record.id)

def encodeLength (what : String) (n : Nat) : Except Failure Bytes :=
  if n < UInt32.size then .ok (le32 n) else .error (.because .writeFailed s!"{what} is too large")

def encodeRow (layout : IndexedLayout) (names : List String) (counterIndex valueOffset : Nat)
    (record : FunctionRecord) (blob : Bytes) : Except Failure Bytes := do
  let nameOffset ← encodeUint layout.offsetWidth (NamePool.offset 0 record.name names)
  let nameLength ← encodeLength "name" (Utf8.bytes record.name).length
  let index ← encodeUint layout.offsetWidth counterIndex
  let count ← encodeLength "counter count" record.counters.length
  let fixed := nameOffset ++ nameLength ++ le64 record.hash.toNat ++ index ++ count
  if layout.hasValueProfiles then
    let offset ← encodeUint layout.offsetWidth (if blob.isEmpty then 0 else valueOffset)
    let length ← encodeLength "value profile" blob.length
    return fixed ++ offset ++ length
  else return fixed

def encodeRows (layout : IndexedLayout) (names : List String) :
    Nat → Nat → List (FunctionRecord × Bytes) → Except Failure Bytes
  | _, _, [] => .ok []
  | counterIndex, valueOffset, (record, blob) :: rest => do
      let row ← (encodeRow layout names counterIndex valueOffset record blob).mapError
        (·.inFunction record.id)
      let rows ← encodeRows layout names (counterIndex + record.counters.length)
        (valueOffset + blob.length) rest
      return row ++ rows

def encodeCounters (width : Width) (record : FunctionRecord) : Except Failure Bytes := do
  let counters ← record.counters.mapM fun count =>
    (encodeUint width count.toNat).mapError (·.inFunction record.id)
  return counters.flatten

def encodeHeader (version : Version) (variant : Variant) (sections : Sections) (sum : UInt32) :
    Except Failure Bytes := do
  let layout := version.indexedLayout
  let field : IndexedField → Nat
    | .hashType => 0
    | .checksum => sum.toNat
    | .hashTableOffset => sections.hashTable
    | .recordsOffset => sections.records
    | .countersOffset => sections.counters
    | .valueProfileOffset => sections.countersEnd
    | .namesOffset => sections.names
  let fields ← layout.header.mapM fun name => encodeUint layout.offsetWidth (field name)
  let word := variant.word (UInt64.ofNat version.tag)
  return le64 magic ++ le64 word.toNat ++ fields.flatten

def write (version : Version) (profile : Profile) : Except Failure Bytes := do
  let layout := version.indexedLayout
  let records := profile.records
  let bucketCount := bucketCountFor records.length
  let chains := (List.range bucketCount).map (chainFor bucketCount records)
  let blobs ← records.mapM (encodeBlob layout)
  let names := NamePool.distinct (records.map FunctionRecord.name)
  let hashTable := layout.headerSize
  let chainsOffset := hashTable + 8 + 8 * bucketCount
  let recordsOffset := chainsOffset + (chains.map (chainSize layout)).foldl (· + ·) 0
  let countersOffset := recordsOffset + records.length * layout.recordSize
  let counterCount := (records.flatMap FunctionRecord.counters).length
  let valuesOffset := countersOffset + counterCount * layout.counterWidth.size
  let sections : Sections := {
    hashTable
    records := recordsOffset
    counters := countersOffset
    valueProfiles := if layout.hasValueProfiles then some valuesOffset else none
    names := valuesOffset + blobs.flatten.length }
  let encodedChains ← chains.mapM (encodeChain layout recordsOffset)
  let rows ← encodeRows layout names 0 0 (records.zip blobs)
  let counters ← records.mapM (encodeCounters layout.counterWidth)
  let body := le64 bucketCount ++ (chainOffsets layout chainsOffset chains).flatMap le64 ++
    encodedChains.flatten ++ rows ++ counters.flatten ++ blobs.flatten ++
    names.flatMap Utf8.bytes
  return (← encodeHeader version profile.variant sections (crc32 body)) ++ body

end ExecCounts.Indexed
