import ExecCounts.Profile

/-!
The layout of raw profiles. Numbers and pointers are those of the machine on which the profiled
process ran, which the first eight bytes tell.

    magic, version, header fields
    binary ids       length, bytes, padding to eight bytes
    data records     name reference, hash, three pointers, numbers of counters and value sites
    counters         eight bytes each
    names            chunks of names with separators between them
    value profiles   a blob for every record with value sites
-/

set_option autoImplicit false

namespace ExecCounts.Raw

structure Machine where
  order : ByteOrder
  pointer : Width
deriving DecidableEq, Repr

namespace Machine

def all : List Machine :=
  [⟨.little, .eight⟩, ⟨.little, .four⟩, ⟨.big, .eight⟩, ⟨.big, .four⟩]

def magic (machine : Machine) : Nat :=
  match machine.pointer with
  | .eight => 0xff6c70726f667281
  | .four => 0xff6c70726f665281

def magicBytes (machine : Machine) : Bytes := machine.order.write 8 machine.magic

def detect? (data : Bytes) : Option Machine :=
  all.find? fun machine => data.take 8 == machine.magicBytes

def recordSize (machine : Machine) : Nat := alignUp (8 + 8 + 3 * machine.pointer.size + 4 + 4) 8

end Machine

def isRaw (data : Bytes) : Bool := (Machine.detect? data).isSome

def nameSeparator : UInt8 := 0x01

def lastValueKind : Nat := 1

end ExecCounts.Raw
