import ExecCounts.Deflate.Code

set_option autoImplicit false

namespace ExecCounts.Deflate

/-- The shortest length, and the number of extra bits, of the length symbols from 257 on. -/
def lengthTable : List (Nat × Nat) :=
  [(3, 0), (4, 0), (5, 0), (6, 0), (7, 0), (8, 0), (9, 0), (10, 0), (11, 1), (13, 1), (15, 1),
    (17, 1), (19, 2), (23, 2), (27, 2), (31, 2), (35, 3), (43, 3), (51, 3), (59, 3), (67, 4),
    (83, 4), (99, 4), (115, 4), (131, 5), (163, 5), (195, 5), (227, 5), (258, 0)]

def distanceTable : List (Nat × Nat) :=
  [(1, 0), (2, 0), (3, 0), (4, 0), (5, 1), (7, 1), (9, 2), (13, 2), (17, 3), (25, 3), (33, 4),
    (49, 4), (65, 5), (97, 5), (129, 6), (193, 6), (257, 7), (385, 7), (513, 8), (769, 8),
    (1025, 9), (1537, 9), (2049, 10), (3073, 10), (4097, 11), (6145, 11), (8193, 12), (12289, 12),
    (16385, 13), (24577, 13)]

def lengthCodeOrder : List Nat := [16, 17, 18, 0, 8, 7, 9, 6, 10, 5, 11, 4, 12, 3, 13, 2, 14, 1, 15]

def fixedLiterals : Code := .ofLengths <|
  List.replicate 144 8 ++ List.replicate 112 9 ++ List.replicate 24 7 ++ List.replicate 8 8

def fixedDistances : Code := .ofLengths (List.replicate 32 5)

namespace Unpack

def extended (table : List (Nat × Nat)) (symbol : Nat) : Unpack Nat :=
  match table[symbol]? with
  | some (least, extra) => return least + (← bits extra)
  | none => throw .corrupt

def symbols (literals distances : Code) : Nat → Unpack Unit
  | 0 => throw .corrupt
  | fuel + 1 => do
      let symbol ← literals.next
      if symbol < 256 then
        emit (UInt8.ofNat symbol)
        symbols literals distances fuel
      else if symbol = 256 then return
      else
        let length ← extended lengthTable (symbol - 257)
        let distance ← extended distanceTable (← distances.next)
        copyOutput distance length
        symbols literals distances fuel

def coded (literals distances : Code) : Unpack Unit := do
  symbols literals distances ((← bitsLeft) + 1)

def stored : Unpack Unit := do
  align
  let length ← bits 16
  let complement ← bits 16
  if length + complement = 0xFFFF then copyInput length else throw .corrupt

/-- Code lengths up to the given total, in reverse: a length, or a repetition of the length before
or of zeros. At most `fuel` of these are read. -/
def codeLengths (code : Code) (total : Nat) : Nat → List Nat → Unpack (List Nat)
  | 0, _ => throw .corrupt
  | fuel + 1, lengths => do
      if lengths.length = total then return lengths.reverse
      if total < lengths.length then throw .corrupt
      let symbol ← code.next
      if symbol < 16 then codeLengths code total fuel (symbol :: lengths)
      else if symbol = 16 then
        match lengths with
        | [] => throw .corrupt
        | last :: _ =>
            let times := 3 + (← bits 2)
            codeLengths code total fuel (List.replicate times last ++ lengths)
      else
        let times ← if symbol = 17 then (3 + ·) <$> bits 3 else (11 + ·) <$> bits 7
        codeLengths code total fuel (List.replicate times 0 ++ lengths)

def lengthCodeLengths (given : List Nat) : List Nat :=
  (List.range 19).map fun symbol => ((lengthCodeOrder.zip given).lookup symbol).getD 0

def dynamic : Unpack Unit := do
  let literalCount := 257 + (← bits 5)
  let distanceCount := 1 + (← bits 5)
  let lengthCount := 4 + (← bits 4)
  if 286 < literalCount ∨ 30 < distanceCount then throw .corrupt
  let lengthCode := Code.ofLengths (lengthCodeLengths (← times lengthCount (bits 3)))
  if !lengthCode.isComplete then throw .corrupt
  let total := literalCount + distanceCount
  let lengths ← codeLengths lengthCode total (total + 1) []
  let literals := Code.ofLengths (lengths.take literalCount)
  let distances := Code.ofLengths (lengths.drop literalCount)
  if !literals.isUsable || !distances.isUsable then throw .corrupt
  coded literals distances

def blocks : Nat → Unpack Unit
  | 0 => throw .corrupt
  | fuel + 1 => do
      let last ← bit
      match ← bits 2 with
      | 0 => stored
      | 1 => coded fixedLiterals fixedDistances
      | 2 => dynamic
      | _ => throw .corrupt
      if last = 1 then return else blocks fuel

def allBlocks : Unpack Unit := do blocks ((← bitsLeft) + 1)

end Unpack

def storedBlock (last : Bool) (payload : Bytes) : Bytes :=
  (if last then 1 else 0) :: le16 payload.length ++ le16 (0xFFFF - payload.length) ++ payload

def storedBlocks : Nat → Bytes → Bytes
  | 0, payload => storedBlock true payload
  | fuel + 1, payload =>
      if payload.length ≤ 0xFFFF then storedBlock true payload
      else storedBlock false (payload.take 0xFFFF) ++ storedBlocks fuel (payload.drop 0xFFFF)

end ExecCounts.Deflate
