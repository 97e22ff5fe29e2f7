import ExecCounts.Utf8
import Mathlib.Control.Basic

set_option autoImplicit false

namespace ExecCounts.Utf8

theorem byte_to_nat (n : Nat) (small : n < 0x100) : (UInt8.ofNat n).toNat = n :=
  UInt8.toNat_ofNat_of_lt' small

theorem byte_between (low high : UInt8) (n : Nat) (small : n < 0x100) (above : low.toNat ≤ n)
    (below : n < high.toNat) : low ≤ UInt8.ofNat n ∧ UInt8.ofNat n < high := by
  rw [UInt8.le_iff_toNat_le, UInt8.lt_iff_toNat_lt, byte_to_nat n small]
  exact ⟨above, below⟩

theorem continuation_byte (n : Nat) :
    continuation? (UInt8.ofNat (n % 0x40 + 0x80)) = some (n % 0x40) := by
  have inside := byte_between 0x80 0xC0 (n % 0x40 + 0x80) (by omega) (by simp) (by simp; omega)
  rw [continuation?, if_pos inside, byte_to_nat _ (by omega)]
  simp

theorem scalar_self (least n : Nat) (c : Char) (number : c.toNat = n) (long : least ≤ n) :
    scalar? least n = some c := by
  have valid : c.toNat.isValidChar := c.valid
  rw [← number] at long ⊢
  rw [scalar?, if_pos ⟨long, valid⟩, Char.ofNat_toNat]

theorem decode_one (a : UInt8) (rest : Bytes) (ascii : a < 0x80) :
    decode (a :: rest) = push (Char.ofNat a.toNat) (decode rest) := by
  rw [decode.eq_def]
  exact if_pos ascii

theorem decode_two (a b : UInt8) (rest : Bytes) (c : Char) (lead : ¬ a < 0x80)
    (two : two? a b = some c) : decode (a :: b :: rest) = push c (decode rest) := by
  rw [decode.eq_def]
  simp only [if_neg lead, two]

theorem decode_three (a b c : UInt8) (rest : Bytes) (char : Char) (lead : ¬ a < 0x80)
    (two : two? a b = none) (three : three? a b c = some char) :
    decode (a :: b :: c :: rest) = push char (decode rest) := by
  rw [decode.eq_def]
  simp only [if_neg lead, two, three]

theorem decode_four (a b c d : UInt8) (rest : Bytes) (char : Char) (lead : ¬ a < 0x80)
    (two : two? a b = none) (three : three? a b c = none) (four : four? a b c d = some char) :
    decode (a :: b :: c :: d :: rest) = push char (decode rest) := by
  rw [decode.eq_def]
  simp only [if_neg lead, two, three, four]

theorem two_none (a b : UInt8) (long : 0xE0 ≤ a) : two? a b = none := by
  have outside : ¬ (0xC0 ≤ a ∧ a < 0xE0) := fun inside => UInt8.not_lt.mpr long inside.2
  simp [two?, guard, outside]

theorem three_none (a b c : UInt8) (long : 0xF0 ≤ a) : three? a b c = none := by
  have outside : ¬ (0xE0 ≤ a ∧ a < 0xF0) := fun inside => UInt8.not_lt.mpr long inside.2
  simp [three?, guard, outside]

theorem not_ascii (a low : UInt8) (long : low ≤ a) (above : 0x80 ≤ low) : ¬ a < 0x80 :=
  UInt8.not_lt.mpr (UInt8.le_trans above long)

theorem decode_encode_char (c : Char) (rest : Bytes) :
    decode (String.utf8EncodeChar c ++ rest) = push c (decode rest) := by
  have scalar : c.toNat < 0x110000 := by
    rcases c.valid with below | ⟨-, below⟩
    · exact Nat.lt_trans below (by decide)
    · exact below
  have value : c.val.toNat = c.toNat := rfl
  simp only [String.utf8EncodeChar, value]
  generalize number : c.toNat = n at scalar
  split
  · have ascii := (byte_between 0 0x80 n (by omega) (by simp) (by simp; omega)).2
    rw [List.singleton_append, decode_one _ _ ascii, byte_to_nat n (by omega), ← number,
      Char.ofNat_toNat]
  split
  · have lead := byte_between 0xC0 0xE0 (n / 64 % 0x20 + 0xC0) (by omega) (by simp)
      (by simp; omega)
    apply decode_two _ _ _ _ (not_ascii _ _ lead.1 (by decide))
    rw [two?, guard, if_pos lead, continuation_byte, byte_to_nat _ (by omega)]
    exact scalar_self _ _ c (by omega) (by omega)
  split
  · have lead := byte_between 0xE0 0xF0 (n / 4096 % 0x10 + 0xE0) (by omega) (by simp)
      (by simp; omega)
    apply decode_three _ _ _ _ _ (not_ascii _ _ lead.1 (by decide)) (two_none _ _ lead.1)
    rw [three?, guard, if_pos lead, continuation_byte, continuation_byte, byte_to_nat _ (by omega)]
    exact scalar_self _ _ c (by omega) (by omega)
  · have lead := byte_between 0xF0 0xF8 (n / 262144 % 0x08 + 0xF0) (by omega) (by simp)
      (by simp; omega)
    have long := UInt8.le_trans (show (0xE0 : UInt8) ≤ 0xF0 by decide) lead.1
    apply decode_four _ _ _ _ _ _ (not_ascii _ _ lead.1 (by decide)) (two_none _ _ long)
      (three_none _ _ _ lead.1)
    rw [four?, guard, if_pos lead, continuation_byte, continuation_byte, continuation_byte,
      byte_to_nat _ (by omega)]
    exact scalar_self _ _ c (by omega) (by omega)

theorem decode_encode (text : List Char) : decode (encode text) = (text, []) := by
  induction text with
  | nil => rfl
  | cons c text ih =>
      rw [encode, List.flatMap_cons, decode_encode_char]
      change push c (decode (encode text)) = _
      rw [ih, push]

theorem read_bytes (text : String) : read (bytes text) = .ok text.toList := by
  rw [read, bytes, decode_encode]

theorem length_le_encode (text : List Char) : text.length ≤ (encode text).length := by
  induction text with
  | nil => exact Nat.le_refl 0
  | cons c text ih =>
      have some : 0 < (String.utf8EncodeChar c).length := by
        rw [String.length_utf8EncodeChar]
        exact c.utf8Size_pos
      rw [encode] at ih
      rw [encode, List.flatMap_cons, List.length_append, List.length_cons]
      omega

theorem bytes_join (texts : List String) :
    bytes (String.join texts) = texts.flatMap bytes := by
  rw [bytes, String.toList_join, encode, List.flatMap_assoc]
  rfl

theorem text_bytes (text : String) : text? (bytes text) = some text := by
  rw [text?, bytes, decode_encode]
  simp

theorem bytes_eq_nil_iff (text : String) : bytes text = [] ↔ text = "" := by
  refine ⟨fun empty => ?_, fun empty => by rw [empty]; rfl⟩
  have back := text_bytes text
  rw [empty] at back
  exact (Option.some.inj back).symm

end ExecCounts.Utf8
