import ExecCounts.Bytes

set_option autoImplicit false

namespace ExecCounts.Crc32

def polynomial : UInt32 := 0xEDB88320

def shift (state : UInt32) : UInt32 :=
  if state &&& 1 = 1 then (state >>> 1) ^^^ polynomial else state >>> 1

def shifts : Nat → UInt32 → UInt32
  | 0, state => state
  | n + 1, state => shifts n (shift state)

def step (state : UInt32) (b : UInt8) : UInt32 := shifts 8 (state ^^^ b.toUInt32)

end ExecCounts.Crc32

namespace ExecCounts

def crc32 (data : Bytes) : UInt32 := data.foldl Crc32.step 0xFFFFFFFF ^^^ 0xFFFFFFFF

end ExecCounts
