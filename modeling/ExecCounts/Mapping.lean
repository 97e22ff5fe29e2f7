import ExecCounts.Mapping.Expr
import ExecCounts.Transcript

set_option autoImplicit false

namespace ExecCounts

inductive RegionKind where
  | code
  | expansion
  | skipped
  | gap
  | branch
deriving DecidableEq, Repr

structure Position where
  line : UInt32
  column : UInt32
deriving DecidableEq, Repr

namespace Position

def le (a b : Position) : Bool := a.line < b.line || (a.line == b.line && a.column ≤ b.column)

end Position

structure Region where
  fileId : UInt32
  start : Position
  stop : Position
  kind : RegionKind
  -- The execution count; for a branch, how often the condition held.
  counter : Expr
  falseCounter : Option Expr
  expandedFileId : Option UInt32
deriving DecidableEq, Repr

namespace Region

def lastColumn : UInt32 := 0xFFFFFFFF

def isWellFormed (region : Region) : Bool := region.start.le region.stop

def counters (region : Region) : List Expr := region.counter :: region.falseCounter.toList

end Region

structure FunctionMapping where
  name : String
  hash : UInt64
  version : Version
  filenames : List String
  regions : List Region
deriving DecidableEq, Repr

namespace FunctionMapping

def id (mapping : FunctionMapping) : FunctionId := ⟨mapping.name, mapping.hash⟩

def filename (mapping : FunctionMapping) : Option String := mapping.filenames.head?

def maxCounter (mapping : FunctionMapping) : Option UInt32 :=
  ((mapping.regions.flatMap Region.counters).map Expr.maxCounter).foldl Expr.maxIndex none

def numCounters (mapping : FunctionMapping) : Nat :=
  match mapping.maxCounter with
  | none => 0
  | some index => index.toNat + 1

end FunctionMapping

structure Mappings where
  functions : List FunctionMapping
  skipped : List Skipped
deriving DecidableEq, Repr

namespace Mappings

def get? (mappings : Mappings) (id : FunctionId) : Option FunctionMapping :=
  mappings.functions.find? (·.id == id)

end Mappings

end ExecCounts
