import ExecCounts.Coverage.Report
import ExecCounts.Mapping
import ExecCounts.Profile
import Std.Data.ExtTreeMap

set_option autoImplicit false

namespace ExecCounts

namespace Coverage

/-- A region that ends on a later line is taken for damaged. -/
def maxLine : Nat := 0x1000000

def candidates (profile : Profile) (name : String) : List FunctionRecord :=
  profile.records.filter fun record => !record.isContextSensitive && record.name == name

/-- A function without any record was never executed; a function that only has records with other
hashes shows that the profile belongs to another binary. Context sensitive records describe a later
stage of compilation and do not matter here. -/
def matchRecord (profile : Profile) (mapping : FunctionMapping) :
    Except Failure (Option FunctionRecord) :=
  let records := candidates profile mapping.name
  match records.find? (·.hash == mapping.hash) with
  | some record => .ok (some record)
  | none =>
      if records.isEmpty then .ok none
      else
        let hashes := records.map fun record => Numeral.hex record.hash.toNat
        .error ((Failure.because .profileBinaryMismatch
          ("the profile only has records with hashes " ++ ", ".intercalate hashes)).inFunction
          mapping.id)

structure FileSegment where
  filename : String
  segment : Segment
deriving DecidableEq, Repr

def evaluateRegion (mapping : FunctionMapping) (counters : Option (List Count)) (region : Region) :
    Except Failure FileSegment := do
  let count ← match counters with
    | some counters => region.counter.evaluate counters
    | none => pure 0
  match mapping.filenames[region.fileId.toNat]? with
  | none =>
      throw (corruptMapping
        s!"region in missing file id {Numeral.decimal region.fileId.toNat}")
  | some filename =>
      let last := region.stop.line.toNat
      if maxLine < last then
        throw (corruptMapping s!"region ends at line {Numeral.decimal last}")
      return ⟨filename, ⟨max region.start.line.toNat 1, last, count⟩⟩

structure Contribution where
  function : FunctionCoverage
  segments : List FileSegment
deriving DecidableEq, Repr

def evaluate (mapping : FunctionMapping) (record : Option FunctionRecord) :
    Except Failure Contribution := do
  let code := mapping.regions.filter (·.kind == .code)
  let segments ← code.mapM (evaluateRegion mapping (record.map FunctionRecord.counters))
  return {
    function := {
      name := mapping.name
      hash := mapping.hash
      filename := mapping.filename
      executionCount := (segments.head?.map fun region => region.segment.count).getD 0
      hasProfile := record.isSome }
    segments }

def transcript (profile : Profile) : List FunctionMapping → Transcript Contribution Unit
  | [] => .done ()
  | mapping :: rest =>
      match matchRecord profile mapping with
      | .error failure => .stop failure
      | .ok record =>
          .cons ((evaluate mapping record).mapError (·.inFunction mapping.id))
            (transcript profile rest)

def firstMappings (mappings : List FunctionMapping) : List FunctionMapping :=
  mappings.eraseDupsBy fun a b => a.id == b.id

def byFile (segments : List FileSegment) : Std.ExtTreeMap String (List Segment) :=
  segments.foldl (fun files region =>
    files.alter region.filename fun before => some (region.segment :: before.getD [])) ∅

def linesFrom (filename : String) (first length : Nat) (count : Count) (isExecutable : Bool) :
    List LineCoverage :=
  (List.range' first length).map fun number => { filename, number, count, isExecutable }

def spanLines (filename : String) (last : Nat) : Nat → List Span → List LineCoverage
  | next, [] => linesFrom filename next (last + 1 - next) 0 false
  | next, span :: rest =>
      linesFrom filename next (span.first - next) 0 false ++
        linesFrom filename span.first (span.last + 1 - span.first) span.count true ++
        spanLines filename last (span.last + 1) rest

def fileLines (fold : LineFold) (filename : String) (segments : List Segment) :
    List LineCoverage :=
  let last := (segments.map Segment.last).foldl max 0
  let proper := segments.filter fun segment => segment.first ≤ segment.last
  spanLines filename last 1 (Span.ofSegments fold proper)

def reportLines (fold : LineFold) (segments : List FileSegment) : List LineCoverage :=
  (byFile segments).toList.flatMap fun (filename, segments) => fileLines fold filename segments

end Coverage

def aggregate (policy : Policy) (fold : LineFold) (profile : Profile) (mappings : Mappings) :
    Except Failure Report := do
  let functions := Coverage.transcript profile (Coverage.firstMappings mappings.functions)
  let (contributions, skipped) ← functions.settle policy
  return {
    lines := Coverage.reportLines fold (contributions.flatMap Coverage.Contribution.segments)
    functions := contributions.map Coverage.Contribution.function
    skipped := profile.skipped ++ mappings.skipped ++ skipped }

def unexecutedFunctions (profile : Profile) (mappings : Mappings) : List FunctionId :=
  let profiled := profile.records.map FunctionRecord.id
  FunctionId.sorted ((mappings.functions.map FunctionMapping.id).filter fun id =>
    !profiled.contains id)

end ExecCounts
