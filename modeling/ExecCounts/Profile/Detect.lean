import ExecCounts.Indexed.Reader
import ExecCounts.Profile.Merge
import ExecCounts.Raw.Reader
import ExecCounts.TextProfile.Reader

set_option autoImplicit false

namespace ExecCounts

def Format.detect (data : Bytes) : Option Format :=
  if Raw.isRaw data then some .raw
  else if Indexed.isIndexed data then some .indexed
  else if TextProfile.isText data then some .text
  else none

structure Heading where
  format : Format
  version : Option Version
  variant : Variant
deriving DecidableEq, Repr

def unknownFormat : Failure :=
  (Failure.because .badMagic "not a raw, indexed or text profile").atOffset 0

namespace Heading

def readBinary (format : Format) : Read Heading := do
  Read.skip 8
  let (tag, variant) := Variant.ofWord (← Read.u64)
  let version ← Read.ofExcept ((Version.require tag).mapError (·.atOffset 8))
  return { format, version := some version, variant }

def peek (data : Bytes) : Except Failure Heading :=
  match Format.detect data with
  | none => .error unknownFormat
  | some .text => do
      let variant ← TextProfile.variant data
      return { format := .text, version := none, variant }
  | some format =>
      let order := match Raw.Machine.detect? data with
        | some machine => machine.order
        | none => .little
      (Cursor.ofBytes data order).read (readBinary format)

end Heading

namespace Profile

def heading (profile : Profile) : Heading := ⟨profile.format, profile.version, profile.variant⟩

def read (policy : Policy) (data : Bytes) : Except Failure Profile :=
  match Format.detect data with
  | some .raw => Raw.parse policy data
  | some .indexed => Indexed.parse policy data
  | some .text => TextProfile.parse policy data
  | none => .error unknownFormat

def groups (size : Nat) : Nat → List Bytes → List (List Bytes)
  | 0, _ => []
  | _, [] => []
  | fuel + 1, inputs => inputs.take size :: groups size fuel (inputs.drop size)

/-- Reads and merges several profiles, divided evenly among a number of workers. Each worker merges
its own share, and the results are merged at the end. -/
def readAll (policy : Policy) (workers : Nat) (inputs : List Bytes) : Except Failure Profile := do
  let used := max (min workers inputs.length) 1
  let size := max ((inputs.length + used - 1) / used) 1
  let merged ← (groups size inputs.length inputs).mapM fun group => do
    mergeAll (← group.mapM (read policy))
  mergeAll merged

end Profile

end ExecCounts
