import ExecCounts.Leb128
import Mathlib.Tactic.Ring

set_option autoImplicit false

namespace ExecCounts.Leb128

theorem last_group_byte (n : Nat) (small : n < 0x80) :
    UInt8.ofNat n < 0x80 ∧ (UInt8.ofNat n).toNat = n := by
  have value : (UInt8.ofNat n).toNat = n := UInt8.toNat_ofNat_of_lt' (by
    simp only [UInt8.size]
    omega)
  exact ⟨UInt8.lt_iff_toNat_lt.mpr (by rw [value]; exact small), value⟩

theorem further_group_byte (n : Nat) :
    ¬ UInt8.ofNat (n % 0x80 + 0x80) < 0x80 ∧
      (UInt8.ofNat (n % 0x80 + 0x80)).toNat - 0x80 = n % 0x80 := by
  have value : (UInt8.ofNat (n % 0x80 + 0x80)).toNat = n % 0x80 + 0x80 :=
    UInt8.toNat_ofNat_of_lt' (by
      simp only [UInt8.size]
      omega)
  refine ⟨fun less => ?_, by omega⟩
  have lessNat := UInt8.lt_iff_toNat_lt.mp less
  rw [value] at lessNat
  have limit : (0x80 : UInt8).toNat = 0x80 := rfl
  omega

theorem decode_groups_encode_groups (groups n : Nat) (rest : Bytes) (fits : n < 2 * 0x80 ^ groups) :
    decodeGroups groups (encodeGroups groups n ++ rest) =
      .ok (n, (encodeGroups groups n).length) := by
  induction groups generalizing n with
  | zero =>
      obtain ⟨-, value⟩ := last_group_byte n (by omega)
      have bit : UInt8.ofNat n ≤ 1 := UInt8.le_iff_toNat_le.mpr (by
        rw [value]
        change n ≤ 1
        omega)
      rw [encodeGroups, List.cons_append, decodeGroups, if_pos bit, value]
      rfl
  | succ groups ih =>
      by_cases small : n < 0x80
      · obtain ⟨final, value⟩ := last_group_byte n small
        rw [encodeGroups, if_pos small, List.cons_append, decodeGroups, if_pos final, value]
        rfl
      · obtain ⟨further, value⟩ := further_group_byte n
        have high := ih (n / 0x80) (by
          rw [Nat.pow_succ] at fits
          omega)
        rw [encodeGroups, if_neg small, List.cons_append, decodeGroups, if_neg further, high]
        simp only [value, List.length_cons, Except.ok.injEq, Prod.mk.injEq, and_true]
        omega

theorem decode_encode (n : Nat) (rest : Bytes) (fits : n < UInt64.size) :
    decode (encode n ++ rest) = .ok (n, (encode n).length) :=
  decode_groups_encode_groups 9 n rest fits

theorem decode_groups_lt (groups value used : Nat) (bytes : Bytes)
    (decoded : decodeGroups groups bytes = .ok (value, used)) : value < 2 * 0x80 ^ groups := by
  fun_induction decodeGroups groups bytes generalizing value used with
  | case1 => cases decoded
  | case2 b rest bit =>
      cases decoded
      have small := UInt8.le_iff_toNat_le.mp bit
      change b.toNat ≤ 1 at small
      omega
  | case3 => cases decoded
  | case4 => cases decoded
  | case5 groups b rest final =>
      cases decoded
      have small := UInt8.lt_iff_toNat_lt.mp final
      change b.toNat < 0x80 at small
      have room : 0 < 0x80 ^ groups := Nat.pow_pos (by decide)
      rw [Nat.pow_succ]
      omega
  | case6 groups b rest further high usedRest inner ih =>
      cases decoded
      have bound := ih high usedRest inner
      have byte := b.toNat_lt
      rw [Nat.pow_succ]
      omega
  | case7 => cases decoded

theorem decode_lt (value used : Nat) (bytes : Bytes) (decoded : decode bytes = .ok (value, used)) :
    value < UInt64.size :=
  decode_groups_lt 9 value used bytes decoded

theorem decode_groups_take (groups value used : Nat) (bytes rest : Bytes)
    (decoded : decodeGroups groups bytes = .ok (value, used)) :
    decodeGroups groups (bytes.take used ++ rest) = .ok (value, used) := by
  fun_induction decodeGroups groups bytes generalizing value used with
  | case1 => cases decoded
  | case2 b others bit =>
      cases decoded
      rw [List.take_succ_cons, List.take_zero, List.cons_append, decodeGroups, if_pos bit]
  | case3 => cases decoded
  | case4 => cases decoded
  | case5 groups b others final =>
      cases decoded
      rw [List.take_succ_cons, List.take_zero, List.cons_append, decodeGroups, if_pos final]
  | case6 groups b others further high usedRest inner ih =>
      cases decoded
      rw [List.take_succ_cons, List.cons_append, decodeGroups, if_neg further, ih high usedRest inner]
  | case7 => cases decoded

theorem decode_take (value used : Nat) (bytes rest : Bytes)
    (decoded : decode bytes = .ok (value, used)) :
    decode (bytes.take used ++ rest) = .ok (value, used) :=
  decode_groups_take 9 value used bytes rest decoded

theorem decode_groups_cut (groups value used : Nat) (left missing : Bytes)
    (decoded : decodeGroups groups (left ++ missing) = .ok (value, used)) :
    decodeGroups groups left = .error .truncated ∨ decodeGroups groups left = .ok (value, used) := by
  induction groups generalizing left value used with
  | zero =>
      cases left with
      | nil => exact .inl (by rw [decodeGroups])
      | cons b others =>
          rw [List.cons_append, decodeGroups] at decoded
          rw [decodeGroups]
          split at decoded
          · rename_i bit
            rw [if_pos bit]
            exact .inr decoded
          · split at decoded <;> cases decoded
  | succ groups ih =>
      cases left with
      | nil => exact .inl (by rw [decodeGroups])
      | cons b others =>
          rw [List.cons_append, decodeGroups] at decoded
          rw [decodeGroups]
          by_cases final : b < 0x80
          · rw [if_pos final] at decoded ⊢
            exact .inr decoded
          · rw [if_neg final] at decoded ⊢
            split at decoded
            · rename_i high usedOthers inner
              rcases ih high usedOthers others inner with truncated | same
              · rw [truncated]
                exact .inl rfl
              · rw [same]
                exact .inr decoded
            · cases decoded

theorem decode_cut (value used : Nat) (left missing : Bytes)
    (decoded : decode (left ++ missing) = .ok (value, used)) :
    decode left = .error .truncated ∨ decode left = .ok (value, used) :=
  decode_groups_cut 9 value used left missing decoded

theorem decode_groups_pos (groups value used : Nat) (bytes : Bytes)
    (decoded : decodeGroups groups bytes = .ok (value, used)) : 0 < used := by
  cases bytes with
  | nil => cases groups <;> cases decoded
  | cons b rest =>
      cases groups <;> rw [decodeGroups] at decoded <;> split at decoded
      · cases decoded
        exact Nat.one_pos
      · split at decoded <;> cases decoded
      · cases decoded
        exact Nat.one_pos
      · split at decoded
        · cases decoded
          exact Nat.succ_pos _
        · cases decoded

theorem decode_pos (value used : Nat) (bytes : Bytes) (decoded : decode bytes = .ok (value, used)) :
    0 < used :=
  decode_groups_pos 9 value used bytes decoded

theorem encode_pos (n : Nat) : 0 < (encode n).length := by
  rw [encode, encodeGroups]
  split <;> simp

theorem encode_not_zeros (n : Nat) (positive : 0 < n) : ∃ byte ∈ encode n, byte ≠ 0 := by
  rw [encode, encodeGroups]
  by_cases small : n < 0x80
  · obtain ⟨-, value⟩ := last_group_byte n small
    refine ⟨UInt8.ofNat n, by rw [if_pos small]; exact List.mem_singleton_self _, fun zero => ?_⟩
    rw [zero] at value
    exact Nat.ne_of_gt positive value.symm
  · obtain ⟨further, -⟩ := further_group_byte n
    refine ⟨UInt8.ofNat (n % 0x80 + 0x80), by rw [if_neg small]; exact List.mem_cons_self, ?_⟩
    intro zero
    rw [zero] at further
    exact further (by decide)

end ExecCounts.Leb128
