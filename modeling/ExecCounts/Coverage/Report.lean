import ExecCounts.Coverage.Span
import ExecCounts.Partition
import ExecCounts.Transcript

set_option autoImplicit false

namespace ExecCounts

structure LineCoverage where
  filename : String
  number : Nat
  count : Count
  isExecutable : Bool
deriving DecidableEq, Repr

structure FunctionCoverage where
  name : String
  hash : UInt64
  filename : Option String
  -- The count of the function's first region.
  executionCount : Count
  hasProfile : Bool
deriving DecidableEq, Repr

namespace FunctionCoverage

def id (coverage : FunctionCoverage) : FunctionId := ⟨coverage.name, coverage.hash⟩

end FunctionCoverage

/-- Lines are ordered by file name and line number, and a file has all lines up to the last one that
a region covers. -/
structure Report where
  lines : List LineCoverage
  functions : List FunctionCoverage
  skipped : List Skipped
deriving DecidableEq, Repr

namespace Report

def fileRange (report : Report) (filename : String) : Nat × Nat :=
  let lines := report.lines.toArray
  (partitionPoint (fun line => line.filename < filename) lines,
    partitionPoint (fun line => line.filename ≤ filename) lines)

def fileLines (report : Report) (filename : String) : List LineCoverage :=
  let (start, stop) := report.fileRange filename
  (report.lines.toArray.extract start stop).toList

def files (report : Report) : List String := (report.lines.map LineCoverage.filename).eraseReps

def executableLines (report : Report) : Nat := (report.lines.filter (·.isExecutable)).length

def coveredLines (report : Report) : Nat :=
  (report.lines.filter fun line => line.isExecutable && line.count != 0).length

end Report

end ExecCounts
