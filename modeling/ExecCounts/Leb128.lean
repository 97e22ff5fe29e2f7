import ExecCounts.Bytes

set_option autoImplicit false

namespace ExecCounts.Leb128

inductive Fault where
  | truncated
  | overflow
deriving DecidableEq, Repr

/-- Unsigned LEB128: groups of seven bits, least significant first, where every byte but the last
has its top bit set. Reads at most `groups` whole groups and one further bit, and tells how many
bytes that took. Where the further byte holds more than a bit, the number is too large if its last
byte is present. -/
def decodeGroups : Nat → Bytes → Except Fault (Nat × Nat)
  | _, [] => .error .truncated
  | 0, b :: rest =>
      if b ≤ 1 then .ok (b.toNat, 1)
      else if (b :: rest).any (· < 0x80) then .error .overflow
      else .error .truncated
  | groups + 1, b :: rest =>
      if b < 0x80 then .ok (b.toNat, 1)
      else match decodeGroups groups rest with
        | .ok (high, used) => .ok (b.toNat - 0x80 + 0x80 * high, used + 1)
        | .error fault => .error fault

def decode (bytes : Bytes) : Except Fault (Nat × Nat) := decodeGroups 9 bytes

def encodeGroups : Nat → Nat → Bytes
  | 0, n => [UInt8.ofNat n]
  | groups + 1, n =>
      if n < 0x80 then [UInt8.ofNat n]
      else UInt8.ofNat (n % 0x80 + 0x80) :: encodeGroups groups (n / 0x80)

def encode (n : Nat) : Bytes := encodeGroups 9 n

theorem used_le_length {groups value used : Nat} {bytes : Bytes}
    (decoded : decodeGroups groups bytes = .ok (value, used)) : used ≤ bytes.length := by
  fun_induction decodeGroups groups bytes generalizing value used with
  | case1 => simp at decoded
  | case2 => simp_all
  | case3 => simp at decoded
  | case4 => simp at decoded
  | case5 => simp_all
  | case6 groups b rest _ high usedRest inner ih =>
      have bound := ih inner
      simp only [Except.ok.injEq, Prod.mk.injEq] at decoded
      simp only [List.length_cons]
      omega
  | case7 => simp at decoded

theorem used_le_length_of_decode {value used : Nat} {bytes : Bytes}
    (decoded : decode bytes = .ok (value, used)) : used ≤ bytes.length :=
  used_le_length decoded

end ExecCounts.Leb128
