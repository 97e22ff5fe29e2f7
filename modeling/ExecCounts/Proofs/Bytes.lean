import ExecCounts.Bytes

set_option autoImplicit false

namespace ExecCounts

theorem Bytes.of_nat_mod_bound (width n : Nat) : ofNat width (n % bound width) = ofNat width n := by
  induction width generalizing n with
  | zero => rfl
  | succ width ih =>
      have digit : UInt8.ofNat (n % (256 * bound width)) = UInt8.ofNat n := by
        apply UInt8.toNat_inj.mp
        simp
      rw [ofNat, ofNat, bound, digit, Nat.mod_mul_right_div_self, ih]

theorem Bytes.to_nat_injective (first second : Bytes) (length : first.length = second.length)
    (same : toNat first = toNat second) : first = second := by
  induction first generalizing second with
  | nil => exact (List.eq_nil_of_length_eq_zero length.symm).symm
  | cons a rest ih =>
      cases second with
      | nil => cases length
      | cons b others =>
          have aSmall := a.toNat_lt
          have bSmall := b.toNat_lt
          rw [toNat, toNat] at same
          have head : a = b := UInt8.toNat_inj.mp (by omega)
          rw [head, ih others (Nat.succ.inj length) (by omega)]

theorem write_word (order : ByteOrder) (n : Nat) :
    order.write 8 (UInt64.ofNat n).toNat = order.write 8 n := by
  have word : (UInt64.ofNat n).toNat = n % Bytes.bound 8 := rfl
  rw [word, ByteOrder.write, Bytes.of_nat_mod_bound, ByteOrder.write]

theorem length_write (order : ByteOrder) (width n : Nat) : (order.write width n).length = width := by
  rw [ByteOrder.write, ByteOrder.length_arrange, Bytes.length_of_nat]

theorem length_le16 (n : Nat) : (le16 n).length = 2 := length_write .little 2 n

theorem length_le32 (n : Nat) : (le32 n).length = 4 := length_write .little 4 n

theorem length_le64 (n : Nat) : (le64 n).length = 8 := length_write .little 8 n

theorem length_zeros (n : Nat) : (Bytes.zeros n).length = n := List.length_replicate

theorem le_align_up_eight (n : Nat) : n ≤ alignUp n 8 := by
  rw [alignUp]
  omega

theorem align_up_eight (n : Nat) : alignUp n 8 = n + (8 - n % 8) % 8 := by
  simp only [alignUp]
  omega

theorem length_pad_to_eight (bytes : Bytes) : (bytes.padTo 8).length = alignUp bytes.length 8 := by
  have above := align_up_eight bytes.length
  simp only [Bytes.padTo, List.length_append, length_zeros]
  omega

theorem pad_to_eq (bytes : Bytes) :
    bytes.padTo 8 = bytes ++ Bytes.zeros ((8 - bytes.length % 8) % 8) := by
  rw [Bytes.padTo, align_up_eight, Nat.add_sub_cancel_left]

end ExecCounts
