import ExecCounts.FunctionId
import ExecCounts.Utf8
import Mathlib.Data.List.Basic
import Mathlib.Tactic.SplitIfs

set_option autoImplicit false

namespace ExecCounts

namespace Utf8

theorem byte_lt (m n : Nat) (mSmall : m < 0x100) (nSmall : n < 0x100) :
    UInt8.ofNat m < UInt8.ofNat n ↔ m < n := by
  rw [UInt8.lt_iff_toNat_lt, UInt8.toNat_ofNat_of_lt' mSmall, UInt8.toNat_ofNat_of_lt' nSmall]

theorem byte_eq (m n : Nat) (mSmall : m < 0x100) (nSmall : n < 0x100) :
    UInt8.ofNat m = UInt8.ofNat n ↔ m = n := by
  rw [← UInt8.toNat_inj, UInt8.toNat_ofNat_of_lt' mSmall, UInt8.toNat_ofNat_of_lt' nSmall]

theorem scalar_bound (c : Char) : c.toNat < 0x110000 := by
  rcases c.valid with below | ⟨-, below⟩
  · exact Nat.lt_trans below (by decide)
  · exact below

theorem encode_char_lt (c d : Char) (less : c < d) (first second : Bytes) :
    String.utf8EncodeChar c ++ first < String.utf8EncodeChar d ++ second := by
  have numbers : c.toNat < d.toNat := less
  have bound := scalar_bound d
  have cValue : c.val.toNat = c.toNat := rfl
  have dValue : d.val.toNat = d.toNat := rfl
  simp only [String.utf8EncodeChar, cValue, dValue]
  generalize c.toNat = m at numbers
  generalize d.toNat = n at numbers bound
  clear less cValue dValue
  have twice : ∀ v : Nat, v / 4096 = v / 64 / 64 := fun v => by omega
  have thrice : ∀ v : Nat, v / 262144 = v / 64 / 64 / 64 := fun v => by omega
  simp only [twice, thrice]
  -- A longer encoding has a greater lead byte. Encodings of one length carry the digits of the
  -- numbers in base 64, the most significant first.
  split_ifs <;> first
    | omega
    | simp (disch := omega) only [List.cons_append, List.nil_append, List.cons_lt_cons_iff, byte_lt,
        byte_eq]
      omega

theorem encode_cons (c : Char) (text : List Char) :
    encode (c :: text) = String.utf8EncodeChar c ++ encode text :=
  List.flatMap_cons

theorem encode_lt (first second : List Char) (less : first < second) :
    encode first < encode second := by
  induction less with
  | @nil c rest =>
      obtain ⟨byte, bytes, lead⟩ := List.exists_cons_of_ne_nil (String.utf8EncodeChar_ne_nil (c := c))
      rw [encode_cons, lead]
      exact List.nil_lt_cons _ _
  | @rel c first d second order =>
      rw [encode_cons, encode_cons]
      exact encode_char_lt c d order _ _
  | @cons c first second _ ih =>
      rw [encode_cons, encode_cons]
      exact List.append_left_lt ih

theorem encode_lt_iff (first second : List Char) :
    encode first < encode second ↔ first < second := by
  refine ⟨fun less => ?_, encode_lt first second⟩
  by_contra notBelow
  by_cases above : second < first
  · exact absurd (encode_lt second first above) (List.lt_asymm less)
  · obtain rfl : first = second := List.le_antisymm above notBelow
    exact absurd less (List.lt_irrefl _)

theorem compare_lt_iff (first second : String) :
    compare first second = .lt ↔ bytes first < bytes second := by
  rw [bytes, bytes, encode_lt_iff, ← String.lt_iff]
  exact compareOfLessAndEq_eq_lt

end Utf8

namespace FunctionId

def Before (a b : FunctionId) : Prop :=
  Utf8.bytes a.name < Utf8.bytes b.name ∨ a.name = b.name ∧ a.hash < b.hash

theorem before_iff (a b : FunctionId) : a.Before b ↔ compare a b = .lt := by
  rw [compare_eq, Ordering.then_eq_lt, Utf8.compare_lt_iff, Std.LawfulEqCmp.compare_eq_iff_eq,
    Std.compare_eq_lt, Before]

end FunctionId

end ExecCounts
