import ExecCounts.Bytes
import ExecCounts.Record
import ExecCounts.Transcript
import ExecCounts.Utf8

set_option autoImplicit false

namespace ExecCounts

inductive Format where
  | raw
  | text
  | indexed
deriving DecidableEq, Repr

namespace Format

def name : Format → String
  | .raw => "raw"
  | .text => "text"
  | .indexed => "indexed"

def stage : Format → Nat
  | .raw => 0
  | .text => 1
  | .indexed => 2

def latest (a b : Format) : Format := if a.stage ≤ b.stage then b else a

end Format

structure Variant where
  ir : Bool
  contextSensitive : Bool
  -- The first counter of every record is the function's entry count.
  entryFirst : Bool
deriving DecidableEq, Repr

namespace Variant

def plain : Variant := ⟨false, false, false⟩

def tagLimit : Nat := 0x100000000000000

def irBit : Nat := 56

def contextBit : Nat := 57

def entryBit : Nat := 58

def ofWord (word : UInt64) : UInt64 × Variant :=
  (UInt64.ofNat (word.toNat % tagLimit),
    ⟨word.toNat.testBit irBit, word.toNat.testBit contextBit, word.toNat.testBit entryBit⟩)

def flag (set : Bool) (bit : Nat) : UInt64 := if set then UInt64.ofNat (1 <<< bit) else 0

def word (variant : Variant) (tag : UInt64) : UInt64 :=
  tag ||| flag variant.ir irBit ||| flag variant.contextSensitive contextBit |||
    flag variant.entryFirst entryBit

def union (a b : Variant) : Variant :=
  ⟨a.ir || b.ir, a.contextSensitive || b.contextSensitive, a.entryFirst || b.entryFirst⟩

def level (variant : Variant) : String := if variant.ir then "IR" else "Front-end"

end Variant

structure Profile where
  format : Format
  version : Option Version
  variant : Variant
  records : List FunctionRecord
  binaryIds : List Bytes
  skipped : List Skipped
deriving DecidableEq, Repr

namespace Profile

def empty (format : Format) : Profile := ⟨format, none, .plain, [], [], []⟩

def recordsByName (profile : Profile) (name : String) : List FunctionRecord :=
  profile.records.filter (·.name == name)

def get? (profile : Profile) (id : FunctionId) : Option FunctionRecord :=
  profile.records.find? (·.id == id)

end Profile

namespace NamePool

def distinct (names : List String) : List String := names.eraseDups

/-- Where a name starts if every name is followed by `gap` further bytes. -/
def offset (gap : Nat) (name : String) : List String → Nat
  | [] => 0
  | first :: rest =>
      if first = name then 0 else (Utf8.bytes first).length + gap + offset gap name rest

end NamePool

end ExecCounts
