import ExecCounts.Bytes

set_option autoImplicit false

namespace ExecCounts.Utf8

def encode (text : List Char) : Bytes := text.flatMap String.utf8EncodeChar

def continuation? (b : UInt8) : Option Nat :=
  if 0x80 ≤ b ∧ b < 0xC0 then some (b.toNat - 0x80) else none

def scalar? (least n : Nat) : Option Char :=
  if least ≤ n ∧ n.isValidChar then some (Char.ofNat n) else none

def two? (a b : UInt8) : Option Char := do
  guard (0xC0 ≤ a ∧ a < 0xE0)
  scalar? 0x80 ((a.toNat - 0xC0) * 0x40 + (← continuation? b))

def three? (a b c : UInt8) : Option Char := do
  guard (0xE0 ≤ a ∧ a < 0xF0)
  scalar? 0x800 (((a.toNat - 0xE0) * 0x40 + (← continuation? b)) * 0x40 + (← continuation? c))

def four? (a b c d : UInt8) : Option Char := do
  guard (0xF0 ≤ a ∧ a < 0xF8)
  scalar? 0x10000 ((((a.toNat - 0xF0) * 0x40 + (← continuation? b)) * 0x40
    + (← continuation? c)) * 0x40 + (← continuation? d))

def push (c : Char) (decoded : List Char × Bytes) : List Char × Bytes :=
  (c :: decoded.1, decoded.2)

def decode : Bytes → List Char × Bytes
  | [] => ([], [])
  | a :: rest =>
      if a < 0x80 then push (Char.ofNat a.toNat) (decode rest)
      else match rest with
        | [] => ([], [a])
        | b :: rest =>
            match two? a b with
            | some char => push char (decode rest)
            | none =>
                match rest with
                | [] => ([], [a, b])
                | c :: rest =>
                    match three? a b c with
                    | some char => push char (decode rest)
                    | none =>
                        match rest with
                        | [] => ([], [a, b, c])
                        | d :: rest =>
                            match four? a b c d with
                            | some char => push char (decode rest)
                            | none => ([], a :: b :: c :: d :: rest)

def read (bytes : Bytes) : Except Nat (List Char) :=
  match decode bytes with
  | (text, []) => .ok text
  | (_, rest) => .error (bytes.length - rest.length)

def text? (bytes : Bytes) : Option String :=
  match decode bytes with
  | (text, []) => some (String.ofList text)
  | (_, _ :: _) => none

def bytes (text : String) : Bytes := encode text.toList

end ExecCounts.Utf8
