import ExecCounts.Chunk
import ExecCounts.Mapping
import ExecCounts.Mapping.ExprTable
import ExecCounts.Mapping.Section
import ExecCounts.Path

set_option autoImplicit false

namespace ExecCounts.Section

structure Head where
  kind : RegionKind
  counter : Expr
  falseCounter : Option Expr
  expandedFileId : Option UInt32
deriving DecidableEq, Repr

structure Scope where
  layout : MappingLayout
  table : ExprTable
  fileCount : Nat

def readHead (scope : Scope) (budget : Nat) : Read (Head × Nat) := do
  let start ← Read.position
  let encoded ← Read.uleb
  let n := encoded.toNat
  if n = 0 ∨ n % 4 ≠ 0 then
    let (counter, budget) ← Read.ofExcept (scope.table.resolve encoded budget)
    return (⟨.code, counter, none, none⟩, budget)
  else if n / 4 % 2 = 1 then
    let expanded := n / 8
    if scope.fileCount ≤ expanded then
      let detail := "expansion into file id " ++ Numeral.decimal expanded ++
        ", the function has " ++ Numeral.decimal scope.fileCount ++ " files"
      throw (corruptMapping detail)
    return (⟨.expansion, .zero, none, some (UInt32.ofNat expanded)⟩, budget)
  else
    let kind := n / 8
    if kind = 0 then return (⟨.code, .zero, none, none⟩, budget)
    else if kind = skippedKind then return (⟨.skipped, .zero, none, none⟩, budget)
    else if kind = branchKind ∧ scope.layout.branchRegions then
      let (counter, budget) ← Read.ofExcept (scope.table.resolve (← Read.uleb) budget)
      let (falseCounter, budget) ← Read.ofExcept (scope.table.resolve (← Read.uleb) budget)
      return (⟨.branch, counter, some falseCounter, none⟩, budget)
    else
      throw ((Failure.because .invalidEncoding
        s!"unknown region kind {Numeral.decimal kind}").atOffset start)

def nextLine (what : String) (line distance : UInt32) : Except Failure UInt32 :=
  if line.toNat + distance.toNat < UInt32.size then .ok (line + distance)
  else .error (corruptMapping s!"region {what} line overflows")

def loadColumns (first last : UInt32) : Bool × UInt32 × UInt32 :=
  let isGap := gapColumn ≤ last.toNat
  let last := if isGap then UInt32.ofNat (last.toNat - gapColumn) else last
  if first = 0 ∧ last = 0 then (isGap, 1, Region.lastColumn) else (isGap, first, last)

def readRegion (scope : Scope) (fileId line : UInt32) (budget : Nat) : Read (Region × Nat) := do
  let (head, budget) ← readHead scope budget
  let lineDelta ← Read.uleb32
  let startColumn ← Read.uleb32
  let lineCount ← Read.uleb32
  let endColumn ← Read.uleb32
  let (isGap, startColumn, endColumn) := loadColumns startColumn endColumn
  let startLine ← Read.ofExcept (nextLine "start" line lineDelta)
  let endLine ← Read.ofExcept (nextLine "end" startLine lineCount)
  let region : Region := {
    fileId
    start := ⟨startLine, startColumn⟩
    stop := ⟨endLine, endColumn⟩
    kind := if isGap then .gap else head.kind
    counter := head.counter
    falseCounter := head.falseCounter
    expandedFileId := head.expandedFileId }
  if !region.isWellFormed then
    let detail := "region " ++ Numeral.decimal startLine.toNat ++ ":" ++
      Numeral.decimal startColumn.toNat ++ " ends before it starts at " ++
      Numeral.decimal endLine.toNat ++ ":" ++ Numeral.decimal endColumn.toNat
    throw (corruptMapping detail)
  return (region, budget)

def readRegions (scope : Scope) (fileId : UInt32) : Nat → UInt32 → Nat → Read (List Region × Nat)
  | 0, _, budget => pure ([], budget)
  | n + 1, line, budget => do
      let (region, budget) ← readRegion scope fileId line budget
      let (regions, budget) ← readRegions scope fileId n region.start.line budget
      return (region :: regions, budget)

def readFiles (scope : Scope) : Nat → Nat → Nat → Read (List Region)
  | 0, _, _ => pure []
  | n + 1, fileId, budget => do
      let count ← Read.uleb
      let (regions, budget) ← readRegions scope (UInt32.ofNat fileId) count.toNat 0 budget
      return regions ++ (← readFiles scope n (fileId + 1) budget)

def readFilename (filenames : List String) : Read String := do
  let index := (← Read.uleb).toNat
  match filenames[index]? with
  | some filename => return filename
  | none =>
      let detail := "filename " ++ Numeral.decimal index ++
        " is out of range, the section has " ++ Numeral.decimal filenames.length ++ " files"
      throw (corruptMapping detail)

def readOperands : Read (UInt64 × UInt64) := do
  let left ← Read.uleb
  let right ← Read.uleb
  return (left, right)

def readFunction (layout : MappingLayout) (filenames : List String) :
    Read (List String × List Region) := do
  let dataSize := (← get).data.length
  let fileCount ← Read.uleb
  let files ← times fileCount.toNat (readFilename filenames)
  let exprCount ← Read.uleb
  let table ← times exprCount.toNat readOperands
  let scope : Scope := ⟨layout, table.toArray, files.length⟩
  let regions ← readFiles scope files.length 0 (ExprTable.budget dataSize)
  if !(← Read.atEnd) then
    throw ((Failure.because .invalidEncoding "trailing bytes after the regions").atOffset
      (← Read.position))
  return (files, regions)

def readNames (layout : MappingLayout) : Read (List String) := do
  let count := (← Read.uleb).toNat
  let names ←
    if layout.compressedFilenames then do
      let payload := Cursor.little (← Chunk.read)
      Read.ofExcept <| payload.read do
        let names ← times count Read.ulebText
        if !(← Read.atEnd) then
          throw (.because .invalidEncoding "trailing bytes after the filenames")
        return names
    else times count Read.ulebText
  if !(← Read.atEnd) then
    throw (.because .invalidEncoding "filenames are shorter than the declared size")
  return names

def resolveNames (layout : MappingLayout) (names : List String) : List String :=
  if layout.compilationDir then
    match names with
    | [] => []
    | dir :: rest => dir :: rest.map (joinPath dir)
  else names

structure Preamble where
  version : Version
  recordCount : Nat
  filenames : List String
deriving DecidableEq, Repr

def readMagic : Read ByteOrder := do
  let start ← Read.position
  let found ← Read.bytes 4
  if found = magic .little then return .little
  else if found = magic .big then return .big
  else throw ((Failure.because .badMagic "not a coverage mapping section").atOffset start)

def readPreamble : Read Preamble := do
  let start ← Read.position
  let order ← readMagic
  modify (·.withOrder order)
  let tag ← Read.u32
  let version ← Read.ofExcept
    ((Version.require (UInt64.ofNat tag.toNat)).mapError (·.atOffset (start + 4)))
  let recordCount ← Read.u32
  let size ← Read.u32
  let tableOffset ← Read.position
  let table := Cursor.little (← Read.bytes size.toNat)
  let layout := version.mappingLayout
  let names ← Read.ofExcept ((table.read (readNames layout)).mapError (·.atOffset tableOffset))
  Read.align 8
  return { version, recordCount := recordCount.toNat, filenames := resolveNames layout names }

structure Record where
  offset : Nat
  name : String
  hash : UInt64
  body : Cursor

def readRecord (layout : MappingLayout) : Read Record := do
  let offset ← Read.position
  let name ← Read.ulebText
  let hash ← Read.u64
  let size ← Read.u32
  let order := (← get).order
  let data ← Read.bytes size.toNat
  if layout.alignedRecords then Read.align 8
  return { offset, name, hash, body := .ofBytes data order }

def decodeRecord (preamble : Preamble) (record : Record) : Except Failure FunctionMapping :=
  match record.body.read (readFunction preamble.version.mappingLayout preamble.filenames) with
  | .ok (filenames, regions) =>
      .ok {
        name := record.name
        hash := record.hash
        version := preamble.version
        filenames
        regions }
  | .error failure =>
      .error ((failure.inFunction ⟨record.name, record.hash⟩).atOffset record.offset)

def records (preamble : Preamble) : Nat → Cursor → Transcript FunctionMapping Cursor
  | 0, cursor => .done cursor
  | n + 1, cursor =>
      match readRecord preamble.version.mappingLayout cursor with
      | .error failure _ => .stop failure
      | .ok record rest => .cons (decodeRecord preamble record) (records preamble n rest)

def transcript (cursor : Cursor) : Transcript FunctionMapping Cursor :=
  match readPreamble cursor with
  | .error failure _ => .stop failure
  | .ok preamble rest => records preamble preamble.recordCount rest

def sections : Nat → Cursor → Transcript FunctionMapping Unit
  | 0, _ => .done ()
  | fuel + 1, cursor =>
      if cursor.rest.all (· == 0) then .done ()
      else match Read.align 8 cursor with
        | .error failure _ => .stop failure
        | .ok () aligned => (transcript aligned).andThen (sections fuel)

end ExecCounts.Section

namespace ExecCounts.Mappings

def transcript (data : Bytes) : Transcript FunctionMapping Unit :=
  Section.sections data.length (Cursor.little data)

/-- Several sections can follow each other at multiples of eight bytes, with zeros at the end. What
is wrong inside the data of a record concerns a single function; every other failure makes the whole
input unreadable. -/
def parse (policy : Policy) (data : Bytes) : Except Failure Mappings := do
  let (functions, skipped) ← (transcript data).settle policy
  return { functions, skipped }

end ExecCounts.Mappings
