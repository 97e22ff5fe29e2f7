import ExecCounts.Text.Numeral

set_option autoImplicit false

namespace ExecCounts.Numeral

theorem is_digit_between (c : Char) (digit : c.isDigit = true) : 48 ≤ c.toNat ∧ c.toNat ≤ 57 := by
  rw [Char.isDigit, Bool.and_eq_true, decide_eq_true_eq, decide_eq_true_eq] at digit
  exact digit

theorem digit_of_is_digit (c : Char) (digit : c.isDigit = true) :
    digit? c = some (c.toNat - '0'.toNat) ∧ c.toNat - '0'.toNat < 10 := by
  have between := is_digit_between c digit
  have decimal : '0' ≤ c ∧ c ≤ '9' := between
  have zero : '0'.toNat = 48 := rfl
  refine ⟨by rw [digit?, if_pos decimal], ?_⟩
  omega

theorem digits_read (text : List Char) (digits : ∀ c ∈ text, c.isDigit = true) (value : Nat) :
    digits? 10 value text = some (Nat.ofDigitChars 10 text value) := by
  induction text generalizing value with
  | nil => rfl
  | cons c rest ih =>
      obtain ⟨digit, small⟩ := digit_of_is_digit c (digits c List.mem_cons_self)
      rw [digits?, digit, Nat.ofDigitChars_cons]
      dsimp only
      rw [if_pos small, ih (fun other member => digits other (List.mem_cons_of_mem _ member)),
        Nat.mul_comm]

theorem read_digits (text : List Char) (filled : text ≠ [])
    (digits : ∀ c ∈ text, c.isDigit = true) : read? text = unsigned? 10 text := by
  unfold read?
  split
  · exact absurd (digits 'x' (by simp)) (by decide)
  · exact absurd (digits 'X' (by simp)) (by decide)
  · rfl

theorem unsigned_digits (text : List Char) (filled : text ≠ [])
    (digits : ∀ c ∈ text, c.isDigit = true) (fits : Nat.ofDigitChars 10 text 0 < UInt64.size) :
    unsigned? 10 text = some (UInt64.ofNat (Nat.ofDigitChars 10 text 0)) := by
  cases text with
  | nil => exact absurd rfl filled
  | cons c rest =>
      have plus : c ≠ '+' := by
        rintro rfl
        exact absurd (digits '+' List.mem_cons_self) (by decide)
      rw [unsigned?, digits_read _ digits]
      · exact if_pos fits
      · intro others same
        exact plus (List.cons.inj same).1
      · exact filled

theorem mem_decimal (n : Nat) (c : Char) (member : c ∈ (decimal n).toList) : c.isDigit = true := by
  rw [decimal, String.toList_ofList] at member
  exact Nat.isDigit_of_mem_toDigits (by decide) (by decide) member

theorem decimal_ne_nil (n : Nat) : (decimal n).toList ≠ [] := by
  rw [decimal, String.toList_ofList]
  exact Nat.toDigits_ne_nil

theorem read_decimal (n : Nat) (fits : n < UInt64.size) :
    read? (decimal n).toList = some (UInt64.ofNat n) := by
  have value : Nat.ofDigitChars 10 (decimal n).toList 0 = n := by
    rw [decimal, String.toList_ofList]
    exact Nat.ofDigitChars_toDigits (by decide) (by decide)
  rw [read_digits _ (decimal_ne_nil n) (mem_decimal n),
    unsigned_digits _ (decimal_ne_nil n) (mem_decimal n) (value.symm ▸ fits), value]

theorem read_decimal_word (word : UInt64) : read? (decimal word.toNat).toList = some word := by
  rw [read_decimal _ word.toNat_lt_size, UInt64.ofNat_toNat]

end ExecCounts.Numeral
