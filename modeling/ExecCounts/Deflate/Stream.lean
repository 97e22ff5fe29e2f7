import ExecCounts.Bytes

set_option autoImplicit false

namespace ExecCounts.Deflate

/-- Input that is read bit by bit, and the output so far. A step that fails leaves the output in
place, so that it is known how much a cut stream had produced. -/
structure Stream where
  input : Bytes
  -- How many bits of the first input byte are read, from the lowest on.
  used : Nat
  output : Array UInt8
deriving Repr

inductive Halt where
  | cut
  | corrupt
deriving DecidableEq, Repr

abbrev Unpack := EStateM Halt Stream

namespace Stream

def ofBytes (input : Bytes) : Stream := ⟨input, 0, #[]⟩

def emit (b : UInt8) (stream : Stream) : Stream :=
  { stream with output := stream.output.push b }

/-- The byte `distance` places back; there are zeros before the start of the output. -/
def byteBack (distance : Nat) (stream : Stream) : UInt8 :=
  if distance ≤ stream.output.size then stream.output.getD (stream.output.size - distance) 0 else 0

def repeatByte (distance : Nat) (stream : Stream) : Stream := stream.emit (stream.byteBack distance)

def align (stream : Stream) : Stream :=
  if stream.used = 0 then stream else { stream with input := stream.input.drop 1, used := 0 }

end Stream

namespace Unpack

def bit : Unpack Nat := fun stream =>
  match stream.input with
  | [] => .error .cut stream
  | b :: rest =>
      let value := (b.toNat.testBit stream.used).toNat
      if stream.used = 7 then .ok value { stream with input := rest, used := 0 }
      else .ok value { stream with used := stream.used + 1 }

def bits : Nat → Unpack Nat
  | 0 => pure 0
  | n + 1 => do
      let low ← bit
      return low + 2 * (← bits n)

def emit (b : UInt8) : Unpack Unit := modify (·.emit b)

def align : Unpack Unit := modify Stream.align

def copyInput (n : Nat) : Unpack Unit := fun stream =>
  let taken := stream.input.take n
  let copied := { stream with input := stream.input.drop n, output := stream.output ++ taken }
  if taken.length = n then .ok () copied else .error .cut copied

/-- Copies `n` bytes of the output from `distance` places back, which may include copied bytes. -/
def copyOutput (distance : Nat) : Nat → Unpack Unit
  | 0 => pure ()
  | n + 1 => do
      modify (·.repeatByte distance)
      copyOutput distance n

def bitsLeft : Unpack Nat := fun stream => .ok (8 * stream.input.length) stream

end Unpack

end ExecCounts.Deflate
