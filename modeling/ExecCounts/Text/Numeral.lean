set_option autoImplicit false

namespace ExecCounts.Numeral

def digit? (c : Char) : Option Nat :=
  if '0' ≤ c ∧ c ≤ '9' then some (c.toNat - '0'.toNat)
  else if 'a' ≤ c ∧ c ≤ 'f' then some (c.toNat - 'a'.toNat + 10)
  else if 'A' ≤ c ∧ c ≤ 'F' then some (c.toNat - 'A'.toNat + 10)
  else none

def digits? (base : Nat) : Nat → List Char → Option Nat
  | value, [] => some value
  | value, c :: rest =>
      match digit? c with
      | some d => if d < base then digits? base (value * base + d) rest else none
      | none => none

def unsigned? (base : Nat) (text : List Char) : Option UInt64 :=
  let unsignedText := match text with
    | '+' :: rest => rest
    | _ => text
  match unsignedText with
  | [] => none
  | _ =>
      match digits? base 0 unsignedText with
      | some n => if n < UInt64.size then some (UInt64.ofNat n) else none
      | none => none

def read? : List Char → Option UInt64
  | '0' :: 'x' :: rest => unsigned? 16 rest
  | '0' :: 'X' :: rest => unsigned? 16 rest
  | text => unsigned? 10 text

def decimal (n : Nat) : String := String.ofList (Nat.toDigits 10 n)

def hex (n : Nat) : String := "0x" ++ String.ofList (Nat.toDigits 16 n)

def hex8 (n : Nat) : String :=
  let digits := Nat.toDigits 16 n
  "0x" ++ String.ofList (List.replicate (8 - digits.length) '0' ++ digits)

end ExecCounts.Numeral
