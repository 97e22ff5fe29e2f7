import ExecCounts.Proofs.Bytes
import ExecCounts.Proofs.Deflate.Expansion

set_option autoImplicit false

namespace ExecCounts.Deflate.Unpack

variable {α β : Type}

theorem bits_add (m n low high : Nat) (stream middle after : Stream)
    (first : bits m stream = .ok low middle) (second : bits n middle = .ok high after) :
    bits (m + n) stream = .ok (low + 2 ^ m * high) after := by
  induction m generalizing low stream with
  | zero =>
      cases first
      rw [Nat.zero_add, Nat.zero_add, Nat.pow_zero, Nat.one_mul, second]
  | succ m ih =>
      obtain ⟨one, between, bitRan, first⟩ := (run_bind_ok_iff _ _ _ _ _).mp first
      obtain ⟨others, last, othersRan, shape⟩ := (run_bind_ok_iff _ _ _ _ _).mp first
      cases shape
      have rest := ih others between othersRan
      rw [Nat.add_right_comm, bits, run_bind_of_ok bitRan, run_bind_of_ok rest]
      have value : one + 2 * (others + 2 ^ m * high) = one + 2 * others + 2 ^ (m + 1) * high := by
        rw [Nat.pow_succ, Nat.mul_comm (2 ^ m) 2, Nat.mul_assoc, Nat.mul_add, Nat.add_assoc]
      rw [value]
      rfl

theorem bit_inside (used : Nat) (byte : UInt8) (rest : Bytes) (output : Array UInt8)
    (inside : used ≠ 7) : bit ⟨byte :: rest, used, output⟩ =
      .ok (byte.toNat / 2 ^ used % 2) ⟨byte :: rest, used + 1, output⟩ := by
  rw [← Nat.toNat_testBit, bit]
  simp only [if_neg inside]

theorem bits_to_end (n used : Nat) (byte : UInt8) (rest : Bytes) (output : Array UInt8)
    (low : used < 8) (ends : used + n = 8) :
    bits n ⟨byte :: rest, used, output⟩ = .ok (byte.toNat / 2 ^ used % 2 ^ n) ⟨rest, 0, output⟩ := by
  induction n generalizing used with
  | zero => omega
  | succ n ih =>
      rw [Nat.pow_succ', Nat.mod_mul]
      by_cases last : used = 7
      · cases last
        cases (by omega : n = 0)
        have step : bit ⟨byte :: rest, 7, output⟩ =
            .ok (byte.toNat / 2 ^ 7 % 2) ⟨rest, 0, output⟩ := by
          rw [← Nat.toNat_testBit]
          rfl
        rw [bits, run_bind_of_ok step, Nat.pow_zero, Nat.mod_one]
        rfl
      · rw [bits, run_bind_of_ok (bit_inside used byte rest output last),
          run_bind_of_ok (ih (used + 1) (by omega) (by omega)), Nat.div_div_eq_div_mul, Nat.pow_succ]
        rfl

theorem bits_byte (byte : UInt8) (rest : Bytes) (output : Array UInt8) :
    bits 8 ⟨byte :: rest, 0, output⟩ = .ok byte.toNat ⟨rest, 0, output⟩ := by
  rw [bits_to_end 8 0 byte rest output (by decide) rfl, Nat.pow_zero, Nat.div_one,
    Nat.mod_eq_of_lt byte.toNat_lt]

theorem bits_bytes (bytes rest : Bytes) (output : Array UInt8) :
    bits (8 * bytes.length) ⟨bytes ++ rest, 0, output⟩ =
      .ok (Bytes.toNat bytes) ⟨rest, 0, output⟩ := by
  induction bytes with
  | nil => rfl
  | cons byte others ih =>
      have both := bits_add 8 (8 * others.length) _ _ _ _ _ (bits_byte byte (others ++ rest) output) ih
      rw [List.length_cons, Nat.mul_succ, Nat.add_comm]
      exact both

theorem bits_short (n : Nat) (small : n < 0x10000) (rest : Bytes) (output : Array UInt8) :
    bits 16 ⟨le16 n ++ rest, 0, output⟩ = .ok n ⟨rest, 0, output⟩ := by
  have read := bits_bytes (le16 n) rest output
  have value : Bytes.toNat (le16 n) = n := by
    have same := Bytes.to_nat_of_nat 2 n
    rw [Nat.mod_eq_of_lt (by simpa only [Bytes.bound] using small)] at same
    exact same
  rw [value, length_le16] at read
  exact read

theorem copy_input_front (bytes rest : Bytes) (output : Array UInt8) :
    copyInput bytes.length ⟨bytes ++ rest, 0, output⟩ = .ok () ⟨rest, 0, output ++ bytes⟩ := by
  rw [copyInput]
  simp only [List.take_left, List.drop_left, if_true]

theorem stored_front (byte : UInt8) (payload rest : Bytes) (output : Array UInt8)
    (short : payload.length ≤ 0xFFFF) :
    stored ⟨byte :: (le16 payload.length ++ le16 (0xFFFF - payload.length) ++ payload ++ rest), 3,
      output⟩ = .ok () ⟨rest, 0, output ++ payload⟩ := by
  have aligned : align ⟨byte :: (le16 payload.length ++ le16 (0xFFFF - payload.length) ++ payload ++
      rest), 3, output⟩ = .ok () ⟨le16 payload.length ++ (le16 (0xFFFF - payload.length) ++
        (payload ++ rest)), 0, output⟩ := by
    rw [List.append_assoc, List.append_assoc]
    rfl
  rw [stored, run_bind_of_ok aligned, run_bind_of_ok (bits_short _ (by omega) _ output),
    run_bind_of_ok (bits_short _ (by omega) _ output), if_pos (by omega)]
  exact copy_input_front payload rest output

theorem bits_kind (byte : UInt8) (rest : Bytes) (output : Array UInt8) :
    bits 2 ⟨byte :: rest, 1, output⟩ =
      .ok (byte.toNat / 2 ^ 1 % 2 + 2 * (byte.toNat / 2 ^ 2 % 2 + 2 * 0))
        ⟨byte :: rest, 3, output⟩ := by
  rw [bits, run_bind_of_ok (bit_inside 1 byte rest output (by decide)), bits,
    bind_assoc, run_bind_of_ok (bit_inside 2 byte rest output (by decide))]
  rfl

theorem block_front (last : Bool) (payload rest : Bytes) (output : Array UInt8) (fuel : Nat)
    (short : payload.length ≤ 0xFFFF) :
    blocks (fuel + 1) ⟨storedBlock last payload ++ rest, 0, output⟩ =
      (if last then pure () else blocks fuel : Unpack Unit) ⟨rest, 0, output ++ payload⟩ := by
  have content := fun byte => stored_front byte payload rest output short
  simp only [storedBlock, List.cons_append]
  generalize le16 payload.length ++ le16 (0xFFFF - payload.length) ++ payload ++ rest = behind
    at content ⊢
  cases last with
  | true =>
      have final : bit ⟨1 :: behind, 0, output⟩ = .ok 1 ⟨1 :: behind, 1, output⟩ :=
        bit_inside 0 1 behind output (by decide)
      have kind : bits 2 ⟨1 :: behind, 1, output⟩ = .ok 0 ⟨1 :: behind, 3, output⟩ :=
        bits_kind 1 behind output
      rw [if_pos rfl, blocks, run_bind_of_ok final, run_bind_of_ok kind]
      exact run_bind_of_ok (content 1)
  | false =>
      have final : bit ⟨0 :: behind, 0, output⟩ = .ok 0 ⟨0 :: behind, 1, output⟩ :=
        bit_inside 0 0 behind output (by decide)
      have kind : bits 2 ⟨0 :: behind, 1, output⟩ = .ok 0 ⟨0 :: behind, 3, output⟩ :=
        bits_kind 0 behind output
      rw [if_neg Bool.false_ne_true, blocks, run_bind_of_ok final, run_bind_of_ok kind]
      exact run_bind_of_ok (content 0)

theorem stored_blocks_front (fuel blockFuel : Nat) (payload rest : Bytes) (output : Array UInt8)
    (enough : fuel < blockFuel) (within : payload.length ≤ 0xFFFF * (fuel + 1)) :
    blocks blockFuel ⟨storedBlocks fuel payload ++ rest, 0, output⟩ =
      .ok () ⟨rest, 0, output ++ payload⟩ := by
  induction fuel generalizing blockFuel payload output with
  | zero =>
      cases blockFuel with
      | zero => cases enough
      | succ blockFuel => exact block_front true payload rest output blockFuel within
  | succ fuel ih =>
      cases blockFuel with
      | zero => cases enough
      | succ blockFuel =>
          rw [storedBlocks]
          by_cases short : payload.length ≤ 0xFFFF
          · rw [if_pos short]
            exact block_front true payload rest output blockFuel short
          · have length : (payload.take 0xFFFF).length = 0xFFFF := by
              rw [List.length_take]
              omega
            rw [if_neg short, List.append_assoc,
              block_front false (payload.take 0xFFFF) _ output blockFuel (Nat.le_of_eq length)]
            have next := ih blockFuel (payload.drop 0xFFFF) (output ++ payload.take 0xFFFF)
              (Nat.lt_of_succ_lt_succ enough) (by rw [List.length_drop]; omega)
            have whole : output ++ payload.take 0xFFFF ++ payload.drop 0xFFFF = output ++ payload := by
              apply Array.toList_inj.mp
              rw [Array.toList_appendList, Array.toList_appendList, Array.toList_appendList,
                List.append_assoc, List.take_append_drop]
            rw [whole] at next
            exact next

end ExecCounts.Deflate.Unpack

namespace ExecCounts.Zlib

open Deflate Unpack

theorem adler_sums_lt (a b : Nat) (data : Bytes) (first : a < adlerModulus)
    (second : b < adlerModulus) :
    (adlerSums a b data).1 < adlerModulus ∧ (adlerSums a b data).2 < adlerModulus := by
  induction data generalizing a b with
  | nil => exact ⟨first, second⟩
  | cons byte rest ih => exact ih _ _ (Nat.mod_lt _ (by decide)) (Nat.mod_lt _ (by decide))

theorem adler32_lt (data : Bytes) : adler32 data < UInt32.size := by
  have bounds := adler_sums_lt 1 0 data (by decide) (by decide)
  simp only [adler32, adlerModulus, UInt32.size] at *
  omega

theorem header_front (rest : Bytes) :
    header (Stream.ofBytes (0x78 :: 0x01 :: rest)) = .ok () ⟨rest, 0, #[]⟩ := by
  rw [header, Stream.ofBytes, run_bind_of_ok (bits_byte 0x78 (0x01 :: rest) #[]),
    run_bind_of_ok (bits_byte 0x01 rest #[]), if_neg (by decide)]
  rfl

theorem trailer_front (payload : Bytes) (output : Array UInt8) (whole : output.toList = payload) :
    trailer ⟨ByteOrder.big.write 4 (adler32 payload), 0, output⟩ = .ok () ⟨[], 0, output⟩ := by
  have bound := adler32_lt payload
  have digits : ByteOrder.big.write 4 (adler32 payload) =
      [UInt8.ofNat (adler32 payload / 256 / 256 / 256), UInt8.ofNat (adler32 payload / 256 / 256),
        UInt8.ofNat (adler32 payload / 256), UInt8.ofNat (adler32 payload)] := rfl
  have aligned : align ⟨ByteOrder.big.write 4 (adler32 payload), 0, output⟩ =
      .ok () ⟨ByteOrder.big.write 4 (adler32 payload), 0, output⟩ := rfl
  have sum : ((adler32 payload / 256 / 256 / 256 % 2 ^ 8 * 0x100 +
      adler32 payload / 256 / 256 % 2 ^ 8) * 0x100 + adler32 payload / 256 % 2 ^ 8) * 0x100 +
        adler32 payload % 2 ^ 8 = adler32 payload := by
    simp only [UInt32.size] at bound
    omega
  have looked : (get : Unpack Stream) ⟨[], 0, output⟩ = .ok ⟨[], 0, output⟩ ⟨[], 0, output⟩ := rfl
  rw [trailer, run_bind_of_ok aligned, digits, run_bind_of_ok (bits_byte _ _ output),
    run_bind_of_ok (bits_byte _ _ output), run_bind_of_ok (bits_byte _ _ output),
    run_bind_of_ok (bits_byte _ _ output)]
  simp only [UInt8.toNat_ofNat']
  rw [run_bind_of_ok looked, whole, if_neg fun differs => differs sum]
  rfl

theorem length_stored_blocks (fuel : Nat) (payload : Bytes) :
    payload.length ≤ (storedBlocks fuel payload).length := by
  have block : ∀ (last : Bool) (payload : Bytes),
      payload.length ≤ (storedBlock last payload).length := by
    intro last payload
    simp only [storedBlock, List.length_append]
    omega
  induction fuel generalizing payload with
  | zero => exact block true payload
  | succ fuel ih =>
      rw [storedBlocks]
      by_cases short : payload.length ≤ 0xFFFF
      · rw [if_pos short]
        exact block true payload
      · have front := block false (payload.take 0xFFFF)
        have rest := ih (payload.drop 0xFFFF)
        rw [if_neg short, List.length_append]
        rw [List.length_take] at front
        rw [List.length_drop] at rest
        omega

theorem inflate_deflate (payload : Bytes) : inflate (deflate payload) = .complete payload := by
  let sum := ByteOrder.big.write 4 (adler32 payload)
  let content := storedBlocks (payload.length / 0xFFFF) payload ++ sum
  have left : bitsLeft ⟨content, 0, #[]⟩ = .ok (8 * content.length) ⟨content, 0, #[]⟩ := rfl
  have enough : payload.length / 0xFFFF < 8 * content.length + 1 := by
    have below := length_stored_blocks (payload.length / 0xFFFF) payload
    have total : content.length = (storedBlocks (payload.length / 0xFFFF) payload).length +
        sum.length := List.length_append
    omega
  have blocksRan : allBlocks ⟨content, 0, #[]⟩ = .ok () ⟨sum, 0, (#[] : Array UInt8) ++ payload⟩ := by
    rw [allBlocks, run_bind_of_ok left]
    exact stored_blocks_front _ _ payload sum #[] enough (by omega)
  have output : ((#[] : Array UInt8) ++ payload).toList = payload := by
    rw [Array.toList_appendList, List.nil_append]
  have ran : expand (Stream.ofBytes (deflate payload)) = .ok () ⟨[], 0, (#[] : Array UInt8) ++ payload⟩ := by
    have shape : deflate payload = 0x78 :: 0x01 :: content := by
      rw [deflate, List.append_assoc]
      rfl
    rw [shape, expand, run_bind_of_ok (header_front content), run_bind_of_ok blocksRan]
    exact trailer_front payload _ output
  rw [inflate, ran]
  exact congrArg Outcome.complete output

end ExecCounts.Zlib
