import ExecCounts.Proofs.Outcome
import ExecCounts.Text.Numeral
import Mathlib.Data.Nat.Digits.Defs
import Mathlib.Tactic.Ring

set_option autoImplicit false

namespace ExecCounts.Numeral

def Stands (c : Char) (digit : Nat) : Prop :=
  c = digit.digitChar ∨ c = digit.digitChar.toUpper

def Digits (base n : Nat) (text : List Char) : Prop :=
  ∃ digits : List Nat, digits ≠ [] ∧ (∀ digit ∈ digits, digit < base) ∧
    List.Forall₂ Stands text digits ∧ Nat.ofDigits base digits.reverse = n

def Signed (base n : Nat) (text : List Char) : Prop :=
  Digits base n text ∨ ∃ digits, text = '+' :: digits ∧ Digits base n digits

/-- Numbers have 64 bits. The sign of a hexadecimal one stands behind the mark of the base. -/
def Spells (n : Nat) (text : List Char) : Prop :=
  n < UInt64.size ∧ (Signed 10 n text ∨
    ∃ mark digits, (mark = 'x' ∨ mark = 'X') ∧ text = '0' :: mark :: digits ∧ Signed 16 n digits)

theorem digit_chars : ∀ digit < 16,
    digit.digitChar.toNat = (if digit < 10 then 48 + digit else 87 + digit) ∧
    digit.digitChar.toUpper.toNat = if digit < 10 then 48 + digit else 55 + digit := by
  decide

theorem digit_iff (c : Char) (digit : Nat) :
    digit? c = some digit ↔ digit < 16 ∧ Stands c digit := by
  have decimal : ('0' ≤ c ∧ c ≤ '9') ↔ 48 ≤ c.toNat ∧ c.toNat ≤ 57 := Iff.rfl
  have lower : ('a' ≤ c ∧ c ≤ 'f') ↔ 97 ≤ c.toNat ∧ c.toNat ≤ 102 := Iff.rfl
  have upper : ('A' ≤ c ∧ c ≤ 'F') ↔ 65 ≤ c.toNat ∧ c.toNat ≤ 70 := Iff.rfl
  have first : '0'.toNat = 48 ∧ 'a'.toNat = 97 ∧ 'A'.toNat = 65 := ⟨rfl, rfl, rfl⟩
  rw [Stands, ← Char.toNat_inj, ← Char.toNat_inj]
  simp only [digit?, decimal, lower, upper, first]
  by_cases small : digit < 16
  · rw [(digit_chars digit small).1, (digit_chars digit small).2]
    split_ifs <;> simp only [Option.some.injEq, false_iff] <;> omega
  · split_ifs <;> simp only [Option.some.injEq, false_iff] <;> omega

theorem digits_iff (base : Nat) (small : base ≤ 16) (text : List Char) (value n : Nat) :
    digits? base value text = some n ↔ ∃ digits, (∀ digit ∈ digits, digit < base) ∧
      List.Forall₂ Stands text digits ∧
      value * base ^ digits.length + Nat.ofDigits base digits.reverse = n := by
  induction text generalizing value with
  | nil => simp [digits?]
  | cons c rest ih =>
      -- Taking the first digit into the value does not change the number.
      have shift : ∀ digit digits, (value * base + digit) * base ^ List.length digits +
          Nat.ofDigits base digits.reverse =
          value * base ^ (digit :: digits).length + Nat.ofDigits base (digit :: digits).reverse := by
        intro digit digits
        rw [List.reverse_cons, Nat.ofDigits_append, List.length_reverse, List.length_cons,
          Nat.ofDigits_singleton]
        ring
      rw [digits?]
      constructor
      · intro read
        cases first : digit? c with
        | none =>
            rw [first] at read
            cases read
        | some digit =>
            rw [first] at read
            dsimp only at read
            split at read
            · rename_i below
              obtain ⟨digits, belowAll, stands, total⟩ := (ih _).mp read
              exact ⟨digit :: digits, List.forall_mem_cons.mpr ⟨below, belowAll⟩,
                .cons ((digit_iff c digit).mp first).2 stands, by rw [← shift, total]⟩
            · cases read
      · rintro ⟨digits, belowAll, stands, total⟩
        cases stands with
        | @cons _ digit _ digits own stands =>
            obtain ⟨below, belowAll⟩ := List.forall_mem_cons.mp belowAll
            have first := (digit_iff c digit).mpr ⟨by omega, own⟩
            rw [first]
            dsimp only
            rw [if_pos below]
            exact (ih _).mpr ⟨digits, belowAll, stands, by rw [shift, total]⟩

theorem digits_of_iff (base : Nat) (small : base ≤ 16) (n : Nat) (text : List Char) :
    Digits base n text ↔ text ≠ [] ∧ digits? base 0 text = some n := by
  rw [digits_iff base small]
  constructor
  · rintro ⟨digits, filled, below, stands, total⟩
    refine ⟨?_, digits, below, stands, by rw [Nat.zero_mul, Nat.zero_add, total]⟩
    rintro rfl
    exact filled (List.forall₂_nil_left_iff.mp stands)
  · rintro ⟨filled, digits, below, stands, total⟩
    refine ⟨digits, ?_, below, stands, by rw [← total, Nat.zero_mul, Nat.zero_add]⟩
    rintro rfl
    exact filled (List.forall₂_nil_right_iff.mp stands)

theorem signed_sign_iff (base : Nat) (small : base ≤ 16) (n : Nat) (digits : List Char) :
    Signed base n ('+' :: digits) ↔ Digits base n digits := by
  constructor
  · rintro (sign | ⟨others, same, spelled⟩)
    · -- A plus sign is no digit.
      have read := ((digits_of_iff base small n _).mp sign).2
      cases read
    · cases same
      exact spelled
  · intro spelled
    exact .inr ⟨digits, rfl, spelled⟩

theorem signed_bare_iff (base n : Nat) (text : List Char) (bare : ∀ digits, text ≠ '+' :: digits) :
    Signed base n text ↔ Digits base n text := by
  constructor
  · rintro (spelled | ⟨digits, same, -⟩)
    · exact spelled
    · exact absurd same (bare digits)
  · exact .inl

theorem clipped_iff (n : Nat) (word : UInt64) :
    (if n < UInt64.size then some (UInt64.ofNat n) else none) = some word ↔ n = word.toNat := by
  constructor
  · intro fits
    split at fits
    · rename_i small
      rw [← Option.some.inj fits, UInt64.toNat_ofNat_of_lt' small]
    · cases fits
  · rintro rfl
    rw [if_pos word.toNat_lt_size, UInt64.ofNat_toNat]

theorem unsigned_iff (base : Nat) (small : base ≤ 16) (text : List Char) (word : UInt64) :
    unsigned? base text = some word ↔ Signed base word.toNat text := by
  by_cases sign : ∃ digits, text = '+' :: digits
  · obtain ⟨digits, rfl⟩ := sign
    rw [signed_sign_iff base small, digits_of_iff base small]
    cases digits with
    | nil => simp [unsigned?]
    | cons c rest =>
        cases value : digits? base 0 (c :: rest) with
        | none => simp [unsigned?, value]
        | some n => simpa [unsigned?, value] using clipped_iff n word
  · have bare : ∀ digits, text ≠ '+' :: digits := fun digits same => sign ⟨digits, same⟩
    rw [signed_bare_iff base _ text bare, digits_of_iff base small]
    cases text with
    | nil => simp [unsigned?]
    | cons c rest =>
        rw [unsigned?]
        · cases value : digits? base 0 (c :: rest) with
          | none => simp
          | some n => simpa using clipped_iff n word
        · exact bare
        · exact List.cons_ne_nil c rest

theorem read_iff (text : List Char) (word : UInt64) :
    read? text = some word ↔ Spells word.toNat text := by
  have decimal : ∀ mark digits, (mark = 'x' ∨ mark = 'X') →
      ¬ Signed 10 word.toNat ('0' :: mark :: digits) := by
    intro mark digits isMark spelled
    rw [← unsigned_iff 10 (by decide)] at spelled
    rcases isMark with rfl | rfl <;> simp [unsigned?, digits?, digit?] at spelled
  have small := word.toNat_lt_size
  unfold read? Spells
  split
  · rename_i digits
    rw [unsigned_iff 16 (Nat.le_refl 16)]
    simp [small, decimal 'x' digits]
  · rename_i digits
    rw [unsigned_iff 16 (Nat.le_refl 16)]
    simp [small, decimal 'X' digits]
  · rename_i lower upper
    rw [unsigned_iff 10 (by decide)]
    have unmarked : ¬ ∃ mark digits, (mark = 'x' ∨ mark = 'X') ∧ text = '0' :: mark :: digits ∧
        Signed 16 word.toNat digits := by
      rintro ⟨mark, digits, rfl | rfl, same, -⟩
      · exact lower digits same
      · exact upper digits same
    rw [or_iff_left unmarked]
    simp [small]

theorem read_spelled (n : Nat) (text : List Char) (spells : Spells n text) :
    read? text = some (UInt64.ofNat n) := by
  rw [read_iff, UInt64.toNat_ofNat_of_lt' spells.1]
  exact spells

theorem spells_iff (n : Nat) (text : List Char) :
    Spells n text ↔ n < UInt64.size ∧ read? text = some (UInt64.ofNat n) := by
  constructor
  · intro spells
    exact ⟨spells.1, read_spelled n text spells⟩
  · rintro ⟨fits, read⟩
    have spells := (read_iff text _).mp read
    rwa [UInt64.toNat_ofNat_of_lt' fits] at spells

instance (n : Nat) (text : List Char) : Decidable (Spells n text) :=
  decidable_of_iff' _ (spells_iff n text)

theorem read_none_iff (text : List Char) : read? text = none ↔ ∀ n, ¬ Spells n text := by
  constructor
  · intro unread n spells
    rw [read_spelled n text spells] at unread
    cases unread
  · intro unlike
    cases read : read? text with
    | none => rfl
    | some word => exact absurd ((read_iff text word).mp read) (unlike word.toNat)

-- The sign does not stand before the mark of the base.
example : read? "0x+1F".toList = some 31 ∧ read? "+0x1F".toList = none := by decide

def alphabet : List Char := "+xX0123456789abcdefABCDEF".toList

theorem digits_written (base : Nat) (small : base ≤ 16) (n : Nat) (text : List Char)
    (spelled : Digits base n text) : text ≠ [] ∧ ∀ c ∈ text, c ∈ alphabet := by
  obtain ⟨digits, filled, below, stands, -⟩ := spelled
  have listed : ∀ digit < 16, digit.digitChar ∈ alphabet ∧ digit.digitChar.toUpper ∈ alphabet := by
    decide
  constructor
  · rintro rfl
    exact filled (List.forall₂_nil_left_iff.mp stands)
  · intro c member
    obtain ⟨digit, inDigits, stand⟩ := forall₂_exists stands c member
    have both := listed digit (Nat.lt_of_lt_of_le (below digit inDigits) small)
    obtain rfl | rfl := stand
    · exact both.1
    · exact both.2

theorem signed_written (base : Nat) (small : base ≤ 16) (n : Nat) (text : List Char)
    (spelled : Signed base n text) : text ≠ [] ∧ ∀ c ∈ text, c ∈ alphabet := by
  obtain bare | ⟨digits, rfl, spelled⟩ := spelled
  · exact digits_written base small n text bare
  · have written := (digits_written base small n digits spelled).2
    exact ⟨List.cons_ne_nil _ _, List.forall_mem_cons.mpr ⟨by decide, written⟩⟩

theorem spells_written (n : Nat) (text : List Char) (spells : Spells n text) :
    text ≠ [] ∧ ∀ c ∈ text, c ∈ alphabet := by
  obtain ⟨-, decimal | ⟨mark, digits, isMark, rfl, hexadecimal⟩⟩ := spells
  · exact signed_written 10 (by decide) n text decimal
  · have written := (signed_written 16 (by decide) n digits hexadecimal).2
    have markListed : mark ∈ alphabet := by rcases isMark with rfl | rfl <;> decide
    exact ⟨List.cons_ne_nil _ _, List.forall_mem_cons.mpr
      ⟨by decide, List.forall_mem_cons.mpr ⟨markListed, written⟩⟩⟩

end ExecCounts.Numeral
