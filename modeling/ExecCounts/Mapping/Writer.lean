import ExecCounts.Chunk
import ExecCounts.Mapping
import ExecCounts.Mapping.ExprTable
import ExecCounts.Mapping.Section

set_option autoImplicit false

namespace ExecCounts.Section

structure Options where
  version : Version
  compress : Bool
  compilationDir : String
deriving DecidableEq, Repr

def unwritable (mapping : FunctionMapping) (detail : String) : Failure :=
  (Failure.because .writeFailed detail).inFunction mapping.id

def regionBefore (a b : Region) : Bool :=
  a.fileId < b.fileId || (a.fileId == b.fileId && a.start.line ≤ b.start.line)

def sortRegions (regions : List Region) : List Region := regions.mergeSort regionBefore

def checkRegions (mapping : FunctionMapping) : List Region → Except Failure Unit
  | [] => .ok ()
  | region :: rest =>
      if mapping.filenames.length ≤ region.fileId.toNat then
        .error (unwritable mapping
          s!"region refers to missing file id {Numeral.decimal region.fileId.toNat}")
      else if region.isWellFormed then checkRegions mapping rest
      else .error (unwritable mapping "region ends before it starts")

abbrev Encode := StateT ExprTable (Except Failure)

def encodeExpr (expr : Expr) : Encode Bytes := fun table =>
  let (encoded, table) := table.encode expr
  .ok (Leb128.encode encoded.toNat, table)

def encodeHead (layout : MappingLayout) (mapping : FunctionMapping) (region : Region) :
    Encode Bytes :=
  match region.kind with
  | .code => encodeExpr region.counter
  | .gap => encodeExpr region.counter
  | .expansion =>
      match region.expandedFileId with
      | none => throw (unwritable mapping "expansion without a valid file id")
      | some id =>
          if id.toNat < mapping.filenames.length then return Leb128.encode (8 * id.toNat + 4)
          else throw (unwritable mapping "expansion without a valid file id")
  | .skipped => return Leb128.encode (8 * skippedKind)
  | .branch => do
      if !layout.branchRegions then
        throw (unwritable mapping "branch regions are not supported by this version")
      let counter ← encodeExpr region.counter
      let falseCounter ← encodeExpr (region.falseCounter.getD .zero)
      return Leb128.encode (8 * branchKind) ++ counter ++ falseCounter

def storedColumns (mapping : FunctionMapping) (region : Region) : Except Failure (Nat × Nat) := do
  let first := region.start.column
  let last := region.stop.column
  let (first, last) ←
    if first = 1 ∧ last = Region.lastColumn then pure (0, 0)
    else if gapColumn ≤ last.toNat then
      throw (unwritable mapping s!"column {Numeral.decimal last.toNat} is too large")
    else pure (first.toNat, last.toNat)
  return (first, if region.kind = .gap then last + gapColumn else last)

def encodeRegions (layout : MappingLayout) (mapping : FunctionMapping) :
    Nat → List Region → Encode Bytes
  | _, [] => pure []
  | line, region :: rest => do
      let head ← encodeHead layout mapping region
      let startLine := region.start.line.toNat
      let (first, last) ← storedColumns mapping region
      let encoded := head ++ Leb128.encode (startLine - line) ++ Leb128.encode first ++
        Leb128.encode (region.stop.line.toNat - startLine) ++ Leb128.encode last
      return encoded ++ (← encodeRegions layout mapping startLine rest)

def encodeFiles (layout : MappingLayout) (mapping : FunctionMapping) (regions : List Region) :
    Nat → Nat → Encode Bytes
  | 0, _ => pure []
  | n + 1, fileId => do
      let own := regions.filter fun region => region.fileId.toNat == fileId
      let encoded ← encodeRegions layout mapping 0 own
      return Leb128.encode own.length ++ encoded ++
        (← encodeFiles layout mapping regions n (fileId + 1))

def encodeFunction (layout : MappingLayout) (mapping : FunctionMapping) (indices : List Nat) :
    Except Failure Bytes := do
  let regions := sortRegions mapping.regions
  checkRegions mapping regions
  let (encoded, table) ← (encodeFiles layout mapping regions indices.length 0).run #[]
  let entries := table.toList.flatMap fun (left, right) =>
    Leb128.encode left.toNat ++ Leb128.encode right.toNat
  return Leb128.encode indices.length ++ indices.flatMap Leb128.encode ++
    Leb128.encode table.size ++ entries ++ encoded

def encodeText (text : String) : Bytes :=
  let bytes := Utf8.bytes text
  Leb128.encode bytes.length ++ bytes

def encodeRecord (layout : MappingLayout) (table : List String) (mapping : FunctionMapping) :
    Except Failure Bytes := do
  let data ← encodeFunction layout mapping (mapping.filenames.map (table.idxOf ·))
  if UInt32.size ≤ data.length then throw (unwritable mapping "mapping data is too large")
  let record := encodeText mapping.name ++ le64 mapping.hash.toNat ++ le32 data.length ++ data
  return if layout.alignedRecords then Bytes.padTo 8 record else record

def filenameTable (options : Options) (functions : List FunctionMapping) : List String :=
  let used := functions.flatMap FunctionMapping.filenames
  let names := if options.version.mappingLayout.compilationDir then
    options.compilationDir :: used else used
  names.eraseDups

def encodeFilenames (deflate : Bytes → Bytes) (options : Options) (names : List String) : Bytes :=
  let encoded := names.flatMap encodeText
  Leb128.encode names.length ++
    if options.version.mappingLayout.compressedFilenames then
      Chunk.writeWith deflate options.compress encoded
    else encoded

def encodeSize (what : String) (n : Nat) : Except Failure Bytes :=
  if n < UInt32.size then .ok (le32 n)
  else .error (.because .writeFailed s!"{what} exceeds 32 bits")

def writeWith (deflate : Bytes → Bytes) (options : Options) (functions : List FunctionMapping) :
    Except Failure Bytes := do
  let layout := options.version.mappingLayout
  let table := filenameTable options functions
  let records ← functions.mapM (encodeRecord layout table)
  let names := encodeFilenames deflate options table
  let recordCount ← encodeSize "number of records" functions.length
  let namesSize ← encodeSize "filename table" names.length
  let preamble := magic .little ++ le32 options.version.tag ++ recordCount ++ namesSize ++ names
  return Bytes.padTo 8 preamble ++ records.flatten

def write : Options → List FunctionMapping → Except Failure Bytes := writeWith Zlib.deflate

end ExecCounts.Section
