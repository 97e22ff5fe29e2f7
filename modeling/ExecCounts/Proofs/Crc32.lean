import ExecCounts.Crc32
import ExecCounts.Proofs.Taken
import Mathlib.Data.Nat.Bitwise

set_option autoImplicit false

namespace ExecCounts

namespace Crc32

theorem low_bit_iff (state : UInt32) : state &&& 1 = 1 ↔ state.toNat % 2 = 1 := by
  rw [← UInt32.toNat_inj, UInt32.toNat_and]
  change state.toNat &&& 1 = 1 ↔ _
  rw [Nat.and_one_is_mod]

theorem shift_xor (a b : UInt32) : shift (a ^^^ b) = shift a ^^^ shift b := by
  have parity : (a ^^^ b).toNat % 2 = (a.toNat + b.toNat) % 2 := by
    rw [UInt32.toNat_xor, Nat.xor_mod_two_eq]
  simp only [shift, low_bit_iff, parity, UInt32.shiftRight_xor]
  by_cases aOdd : a.toNat % 2 = 1
  · by_cases bOdd : b.toNat % 2 = 1
    · have even : ¬ (a.toNat + b.toNat) % 2 = 1 := by omega
      rw [if_neg even, if_pos aOdd, if_pos bOdd, UInt32.xor_assoc, UInt32.xor_comm polynomial,
        UInt32.xor_assoc, UInt32.xor_self, UInt32.xor_zero]
    · have odd : (a.toNat + b.toNat) % 2 = 1 := by omega
      rw [if_pos odd, if_pos aOdd, if_neg bOdd, UInt32.xor_assoc, UInt32.xor_assoc,
        UInt32.xor_comm polynomial]
  · by_cases bOdd : b.toNat % 2 = 1
    · have odd : (a.toNat + b.toNat) % 2 = 1 := by omega
      rw [if_pos odd, if_neg aOdd, if_pos bOdd, UInt32.xor_assoc]
    · have even : ¬ (a.toNat + b.toNat) % 2 = 1 := by omega
      rw [if_neg even, if_neg aOdd, if_neg bOdd]

theorem shift_eq_zero (state : UInt32) (zero : shift state = 0) : state = 0 := by
  have half : (state >>> 1).toNat = state.toNat / 2 := by
    rw [UInt32.toNat_shiftRight]
    exact Nat.shiftRight_one state.toNat
  rw [shift] at zero
  rw [← UInt32.toNat_inj]
  -- The highest coefficient of the polynomial tells an odd state, because no half reaches it.
  by_cases odd : state &&& 1 = 1
  · rw [if_pos odd, UInt32.xor_eq_zero_iff] at zero
    have small := state.toNat_lt
    have large : polynomial.toNat = 0xEDB88320 := rfl
    rw [zero, large] at half
    omega
  · rw [if_neg odd] at zero
    rw [low_bit_iff] at odd
    rw [zero] at half
    change 0 = state.toNat / 2 at half
    change state.toNat = 0
    omega

theorem shifts_xor (n : Nat) (a b : UInt32) : shifts n (a ^^^ b) = shifts n a ^^^ shifts n b := by
  induction n generalizing a b with
  | zero => rfl
  | succ n ih => rw [shifts, shift_xor, ih, shifts, shifts]

theorem shifts_injective (n : Nat) (a b : UInt32) (same : shifts n a = shifts n b) : a = b := by
  induction n generalizing a b with
  | zero => exact same
  | succ n ih =>
      have shifted : shift a = shift b := ih _ _ same
      rw [← UInt32.xor_eq_zero_iff] at shifted ⊢
      rw [← shift_xor] at shifted
      exact shift_eq_zero _ shifted

theorem shifts_add (n m : Nat) (state : UInt32) : shifts (n + m) state = shifts m (shifts n state) := by
  induction n generalizing state with
  | zero => rw [Nat.zero_add, shifts]
  | succ n ih => rw [Nat.add_right_comm, shifts, ih, shifts]

theorem shifts_scaled (n k : Nat) (small : 2 ^ n * k < UInt32.size) :
    shifts n (UInt32.ofNat (2 ^ n * k)) = UInt32.ofNat k := by
  induction n with
  | zero => rw [Nat.pow_zero, Nat.one_mul, shifts]
  | succ n ih =>
      have double : 2 ^ (n + 1) * k = 2 * (2 ^ n * k) := by
        rw [Nat.pow_succ, Nat.mul_comm (2 ^ n), Nat.mul_assoc]
      rw [double] at small ⊢
      have value := UInt32.toNat_ofNat_of_lt' small
      have even : ¬ UInt32.ofNat (2 * (2 ^ n * k)) &&& 1 = 1 := by
        rw [low_bit_iff, value]
        omega
      have half : UInt32.ofNat (2 * (2 ^ n * k)) >>> 1 = UInt32.ofNat (2 ^ n * k) := by
        rw [← UInt32.toNat_inj, UInt32.toNat_shiftRight, value,
          UInt32.toNat_ofNat_of_lt' (by omega)]
        change (2 * (2 ^ n * k)) >>> 1 = _
        rw [Nat.shiftRight_one]
        omega
      rw [shifts, shift, if_neg even, half, ih (by omega)]

theorem word_cons (b : UInt8) (rest : Bytes) :
    UInt32.ofNat (Bytes.toNat (b :: rest)) =
      b.toUInt32 ^^^ UInt32.ofNat (2 ^ 8 * Bytes.toNat rest) := by
  have apart : 2 ^ 8 * Bytes.toNat rest + b.toNat = b.toNat ^^^ 2 ^ 8 * Bytes.toNat rest := by
    apply Nat.eq_of_testBit_eq
    intro bit
    rw [Nat.testBit_two_pow_mul_add _ b.toNat_lt, Nat.testBit_xor, Nat.testBit_two_pow_mul]
    by_cases low : bit < 8
    · simp [low, Nat.not_le_of_lt low]
    · have absent : b.toNat.testBit bit = false :=
        Nat.testBit_lt_two_pow (Nat.lt_of_lt_of_le b.toNat_lt (Nat.pow_le_pow_right (by decide) (by omega)))
      simp [low, absent, Nat.le_of_not_lt low]
  rw [Bytes.toNat, Nat.add_comm]
  change UInt32.ofNat (2 ^ 8 * Bytes.toNat rest + b.toNat) = _
  rw [apart, UInt32.ofNat_xor, UInt32.ofNat_uInt8ToNat]

theorem fold_step (bytes : Bytes) (short : bytes.length ≤ 4) (state : UInt32) :
    bytes.foldl step state =
      shifts (8 * bytes.length) (state ^^^ UInt32.ofNat (Bytes.toNat bytes)) := by
  induction bytes generalizing state with
  | nil => exact (UInt32.xor_zero).symm
  | cons b rest ih =>
      have fewer : rest.length ≤ 3 := Nat.le_of_succ_le_succ short
      have small : 2 ^ 8 * Bytes.toNat rest < UInt32.size := by
        have bound := Bytes.to_nat_lt rest
        have most := Bytes.bound_le fewer
        change _ ≤ 16777216 at most
        change _ < 4294967296
        omega
      -- The later bytes come to a multiple of 2^8, which loses nothing in eight shifts.
      calc (b :: rest).foldl step state
          = shifts (8 * rest.length) (shifts 8 (state ^^^ b.toUInt32) ^^^
              shifts 8 (UInt32.ofNat (2 ^ 8 * Bytes.toNat rest))) := by
            rw [List.foldl_cons, ih (Nat.le_succ_of_le fewer), step, shifts_scaled 8 _ small]
        _ = shifts (8 * rest.length) (shifts 8 (state ^^^ UInt32.ofNat (Bytes.toNat (b :: rest)))) := by
            rw [← shifts_xor, UInt32.xor_assoc, word_cons]
        _ = shifts (8 * (b :: rest).length) (state ^^^ UInt32.ofNat (Bytes.toNat (b :: rest))) := by
            rw [← shifts_add, List.length_cons, Nat.mul_succ, Nat.add_comm]

theorem fold_step_state (bytes : Bytes) (a b : UInt32)
    (same : bytes.foldl step a = bytes.foldl step b) : a = b := by
  induction bytes generalizing a b with
  | nil => exact same
  | cons byte rest ih =>
      have stepped : step a byte = step b byte := ih _ _ same
      exact (UInt32.xor_left_inj _).mp (shifts_injective 8 _ _ stepped)

theorem fold_step_short (first second : Bytes) (length : first.length = second.length)
    (short : first.length ≤ 4) (state : UInt32)
    (same : first.foldl step state = second.foldl step state) : first = second := by
  rw [fold_step first short, fold_step second (length ▸ short), length] at same
  have numbers := (UInt32.xor_right_inj _).mp (shifts_injective _ _ _ same)
  have small : ∀ bytes : Bytes, bytes.length ≤ 4 → Bytes.toNat bytes < UInt32.size := fun bytes few =>
    Nat.lt_of_lt_of_le (Bytes.to_nat_lt bytes) (Bytes.bound_le few)
  have value := congrArg UInt32.toNat numbers
  rw [UInt32.toNat_ofNat_of_lt' (small first short),
    UInt32.toNat_ofNat_of_lt' (small second (length ▸ short))] at value
  exact Bytes.to_nat_injective first second length value

end Crc32

theorem crc32_burst (before first second after : Bytes) (length : first.length = second.length)
    (short : first.length ≤ 4)
    (same : crc32 (before ++ (first ++ after)) = crc32 (before ++ (second ++ after))) :
    first = second := by
  have folded := (UInt32.xor_left_inj _).mp same
  simp only [List.foldl_append] at folded
  exact Crc32.fold_step_short first second length short _ (Crc32.fold_step_state after _ _ folded)

example : crc32 [0x31, 0x32, 0x33, 0x34, 0x35, 0x36, 0x37, 0x38, 0x39] = 0xCBF43926 := by
  decide +kernel

end ExecCounts
