import ExecCounts.Cursor
import ExecCounts.Zlib

set_option autoImplicit false

namespace ExecCounts.Chunk

def expand (size : Nat) (stream : Bytes) : Except String Bytes :=
  let mismatch := s!"chunk does not inflate to {Numeral.decimal size} bytes"
  match Zlib.inflate stream with
  | .complete output => if output.length = size then .ok output else .error mismatch
  | .cut output =>
      if output.length < size then .error "bad zlib payload: incomplete deflate stream"
      else .error mismatch
  | .corrupt => .error (if 0 < size then "bad zlib payload: corrupt deflate stream" else mismatch)

/-- A payload behind its size and its compressed size. A compressed size of zero means that the
payload is stored as it is; otherwise it is a zlib stream that must expand to exactly the given
size. -/
def read : Read Bytes := do
  let start ← Read.position
  let size ← Read.uleb
  let compressedSize ← Read.uleb
  if compressedSize = 0 then Read.bytes size.toNat
  else
    match expand size.toNat (← Read.bytes compressedSize.toNat) with
    | .ok payload => return payload
    | .error detail => throw ((Failure.because .invalidEncoding detail).atOffset start)

/-- A chunk that reads back as the payload, given how to compress. The empty payload is always
stored as it is. -/
def writeWith (deflate : Bytes → Bytes) (compress : Bool) (payload : Bytes) : Bytes :=
  if compress && !payload.isEmpty then
    let stream := deflate payload
    Leb128.encode payload.length ++ Leb128.encode stream.length ++ stream
  else Leb128.encode payload.length ++ Leb128.encode 0 ++ payload

def write : Bool → Bytes → Bytes := writeWith Zlib.deflate

end ExecCounts.Chunk
