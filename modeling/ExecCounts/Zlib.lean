import ExecCounts.Deflate.Block

set_option autoImplicit false

namespace ExecCounts.Zlib

open Deflate

def adlerModulus : Nat := 65521

def adlerSums : Nat → Nat → Bytes → Nat × Nat
  | a, b, [] => (a, b)
  | a, b, byte :: rest =>
      let a := (a + byte.toNat) % adlerModulus
      adlerSums a ((b + a) % adlerModulus) rest

def adler32 (data : Bytes) : Nat :=
  let (a, b) := adlerSums 1 0 data
  b * 0x10000 + a

inductive Outcome where
  | complete (output : Bytes)
  | cut (output : Bytes)
  | corrupt
deriving DecidableEq, Repr

/-- The two bytes before the blocks: deflate, a window of at most 32 KiB and no dictionary. -/
def header : Unpack Unit := do
  let method ← Unpack.bits 8
  let flags ← Unpack.bits 8
  if (method * 0x100 + flags) % 31 ≠ 0 ∨ method % 0x10 ≠ 8 ∨ 7 < method / 0x10 ∨
      flags / 0x20 % 2 = 1 then
    throw .corrupt

def trailer : Unpack Unit := do
  Unpack.align
  let a ← Unpack.bits 8
  let b ← Unpack.bits 8
  let c ← Unpack.bits 8
  let d ← Unpack.bits 8
  let sum := ((a * 0x100 + b) * 0x100 + c) * 0x100 + d
  if sum ≠ adler32 (← get).output.toList then throw .corrupt

def expand : Unpack Unit := do
  header
  Unpack.allBlocks
  trailer

def inflate (payload : Bytes) : Outcome :=
  match expand (Stream.ofBytes payload) with
  | .ok () stream => .complete stream.output.toList
  | .error .cut stream => .cut stream.output.toList
  | .error .corrupt _ => .corrupt

/-- A stream that expands to the payload. It consists of stored blocks. -/
def deflate (payload : Bytes) : Bytes :=
  [0x78, 0x01] ++ storedBlocks (payload.length / 0xFFFF) payload
    ++ ByteOrder.big.write 4 (adler32 payload)

end ExecCounts.Zlib
