import ExecCounts.Proofs.Outcome
import ExecCounts.Zlib
import Mathlib.Algebra.GroupWithZero.Nat

set_option autoImplicit false

namespace ExecCounts.Deflate

namespace Stream

/-- A byte that is read in part is still there. -/
def Sound (stream : Stream) : Prop :=
  stream.used < 8 ∧ (stream.used = 0 ∨ 0 < stream.input.length)

def unread (stream : Stream) : Nat := 8 * stream.input.length - stream.used

/-- The most that can be put out without reading further input than there is. -/
def reach (stream : Stream) : Nat := stream.output.size + 258 * stream.unread

theorem sound_of_bytes (input : Bytes) : (ofBytes input).Sound :=
  ⟨Nat.zero_lt_succ 7, .inl rfl⟩

theorem reach_of_bytes (input : Bytes) : (ofBytes input).reach = 2064 * input.length := by
  simp only [reach, unread, ofBytes, List.size_toArray, List.length_nil]
  omega

end Stream

namespace Unpack

variable {α β : Type}

/-- A step whose result satisfies a condition, and which lowers the reach by the cost but for the
gain. -/
def Bounded (action : Unpack α) (cost gain : Nat) (holds : α → Prop) : Prop :=
  ∀ (stream : Stream) (value : α) (after : Stream), stream.Sound →
    action stream = .ok value after →
      after.Sound ∧ after.reach + cost ≤ stream.reach + gain ∧ holds value

theorem bounded_pure (value : α) (holds : α → Prop) (own : holds value) :
    Bounded (pure value) 0 0 holds := by
  intro stream result after sound ran
  cases ran
  exact ⟨sound, Nat.le_refl _, own⟩

theorem bounded_throw (halt : Halt) (cost gain : Nat) (holds : α → Prop) :
    Bounded (throw halt) cost gain holds := by
  intro stream result after sound ran
  cases ran

theorem bounded_bind {first : Unpack α} {next : α → Unpack β} {cost gain nextCost nextGain : Nat}
    {middle : α → Prop} {holds : β → Prop} (firstBounded : Bounded first cost gain middle)
    (nextBounded : ∀ value, middle value → Bounded (next value) nextCost nextGain holds) :
    Bounded (first >>= next) (cost + nextCost) (gain + nextGain) holds := by
  intro stream result after sound ran
  obtain ⟨value, between, firstRan, nextRan⟩ := (run_bind_ok_iff _ _ _ _ _).mp ran
  obtain ⟨betweenSound, firstReach, middleHolds⟩ := firstBounded stream value between sound firstRan
  obtain ⟨afterSound, nextReach, own⟩ :=
    nextBounded value middleHolds between result after betweenSound nextRan
  exact ⟨afterSound, by omega, own⟩

theorem Bounded.weaken {action : Unpack α} {cost gain cost' gain' : Nat} {holds holds' : α → Prop}
    (bounded : Bounded action cost gain holds) (within : cost' + gain ≤ cost + gain')
    (implies : ∀ value, holds value → holds' value) : Bounded action cost' gain' holds' := by
  intro stream value after sound ran
  obtain ⟨afterSound, reach, own⟩ := bounded stream value after sound ran
  exact ⟨afterSound, by omega, implies value own⟩

def Steady (action : Unpack α) : Prop := Bounded action 0 0 fun _ => True

theorem steady_of {action : Unpack α} {cost gain : Nat} {holds : α → Prop}
    (bounded : Bounded action cost gain holds) (within : gain ≤ cost) : Steady action :=
  bounded.weaken (by omega) fun _ _ => trivial

theorem steady_pure (value : α) : Steady (pure value : Unpack α) :=
  bounded_pure value _ trivial

theorem steady_throw (halt : Halt) : Steady (throw halt : Unpack α) :=
  bounded_throw halt 0 0 _

theorem steady_bind {first : Unpack α} {next : α → Unpack β} (firstSteady : Steady first)
    (nextSteady : ∀ value, Steady (next value)) : Steady (first >>= next) :=
  bounded_bind firstSteady fun value _ => nextSteady value

theorem steady_map (f : α → β) {action : Unpack α} (steady : Steady action) :
    Steady (f <$> action) :=
  steady_bind steady fun value => steady_pure (f value)

theorem steady_ite {condition : Prop} [Decidable condition] {first second : Unpack α}
    (firstSteady : Steady first) (secondSteady : Steady second) :
    Steady (if condition then first else second) := by
  by_cases holds : condition
  · rwa [if_pos holds]
  · rwa [if_neg holds]

theorem steady_check {condition : Prop} [Decidable condition] {next : Unit → Unpack α}
    (steady : Steady (next ())) :
    Steady (if condition then throw Halt.corrupt >>= next else next ()) :=
  steady_ite (steady_bind (steady_throw .corrupt) fun _ => steady) steady

theorem bounded_bit : Bounded bit 258 0 (· < 2) := by
  intro stream value after sound ran
  obtain ⟨input, used, output⟩ := stream
  cases input with
  | nil => cases ran
  | cons byte rest =>
      have small : (byte.toNat.testBit used).toNat < 2 := Bool.toNat_lt _
      obtain ⟨low, -⟩ := sound
      dsimp only at low
      by_cases last : used = 7
      · rw [bit] at ran
        simp only [if_pos last] at ran
        cases ran
        refine ⟨⟨Nat.zero_lt_succ 7, .inl rfl⟩, ?_, small⟩
        simp only [Stream.reach, Stream.unread, List.length_cons]
        omega
      · rw [bit] at ran
        simp only [if_neg last] at ran
        cases ran
        refine ⟨⟨Nat.lt_of_le_of_ne low fun same => last (Nat.succ.inj same), .inr ?_⟩, ?_, small⟩
        · exact Nat.succ_pos _
        · simp only [Stream.reach, Stream.unread, List.length_cons]
          omega

theorem bounded_bits (n : Nat) : Bounded (bits n) 0 0 (· < 2 ^ n) := by
  induction n with
  | zero => exact bounded_pure 0 _ (by decide)
  | succ n ih =>
      have steps := bounded_bind bounded_bit fun low small =>
        bounded_bind ih fun high smaller =>
          bounded_pure (low + 2 * high) (· < 2 ^ (n + 1)) (by rw [Nat.pow_succ]; omega)
      exact steps.weaken (by omega) fun _ fits => fits

theorem steady_bits (n : Nat) : Steady (bits n) :=
  steady_of (bounded_bits n) (Nat.le_refl 0)

theorem bounded_emit (byte : UInt8) : Bounded (emit byte) 0 1 fun _ => True := by
  intro stream value after sound ran
  cases ran
  refine ⟨sound, ?_, trivial⟩
  simp only [Stream.reach, Stream.unread, Stream.emit, Array.size_push]
  omega

theorem bounded_copy_output (distance n : Nat) :
    Bounded (copyOutput distance n) 0 n fun _ => True := by
  induction n with
  | zero => exact bounded_pure () _ trivial
  | succ n ih =>
      have repeated : Bounded (modify (·.repeatByte distance) : Unpack Unit) 0 1 fun _ => True := by
        intro stream value after sound ran
        exact bounded_emit (stream.byteBack distance) stream value after sound ran
      exact (bounded_bind repeated fun _ _ => ih).weaken (by omega) fun _ _ => trivial

theorem bounded_walk (symbols : Array Nat) (counts : List Nat) (word first index : Nat) :
    Bounded (Code.walk symbols counts word first index) 258 0 fun _ => True := by
  induction counts generalizing word first index with
  | nil => exact bounded_throw .corrupt _ _ _
  | cons count longer ih =>
      refine (bounded_bind bounded_bit fun bit _ => ?_ : Bounded _ (258 + 0) (0 + 0) _)
      apply steady_ite
      · exact steady_pure _
      · apply steady_ite
        · exact steady_of (ih _ _ _) (Nat.zero_le _)
        · exact steady_throw .corrupt

theorem bounded_next (code : Code) : Bounded code.next 258 0 fun _ => True :=
  bounded_walk code.symbols code.counts 0 0 0

theorem bounded_length (symbol : Nat) : Bounded (extended lengthTable symbol) 0 0 (· ≤ 258) := by
  rw [extended]
  cases found : lengthTable[symbol]? with
  | none => exact bounded_throw .corrupt _ _ _
  | some entry =>
      obtain ⟨least, extra⟩ := entry
      have longest : ∀ entry ∈ lengthTable, entry.1 + 2 ^ entry.2 ≤ 259 := by decide
      have entryFits := longest _ (List.mem_of_getElem? found)
      exact bounded_bind (bounded_bits extra) fun more small =>
        bounded_pure (least + more) (· ≤ 258) (by dsimp only at entryFits; omega)

theorem steady_extended (table : List (Nat × Nat)) (symbol : Nat) :
    Steady (extended table symbol) := by
  rw [extended]
  cases table[symbol]? with
  | none => exact steady_throw .corrupt
  | some entry => exact steady_bind (steady_bits entry.2) fun _ => steady_pure _

theorem steady_symbols (literals distances : Code) (fuel : Nat) :
    Steady (symbols literals distances fuel) := by
  induction fuel with
  | zero => exact steady_throw .corrupt
  | succ fuel ih =>
      -- What a symbol stands for is paid by the bit that its word has at least.
      have paid : ∀ symbol : Nat, Bounded (if symbol < 256 then do
            emit (UInt8.ofNat symbol)
            symbols literals distances fuel
          else if symbol = 256 then pure ()
          else do
            let length ← extended lengthTable (symbol - 257)
            let distance ← extended distanceTable (← distances.next)
            copyOutput distance length
            symbols literals distances fuel) 0 258 fun _ => True := by
        intro symbol
        by_cases literal : symbol < 256
        · rw [if_pos literal]
          exact (bounded_bind (bounded_emit _) fun _ _ => ih).weaken (by omega) fun _ _ => trivial
        · rw [if_neg literal]
          by_cases last : symbol = 256
          · rw [if_pos last]
            exact (steady_pure ()).weaken (by omega) fun _ _ => trivial
          · rw [if_neg last]
            have copied : ∀ length, length ≤ 258 → Bounded (do
                let distance ← extended distanceTable (← distances.next)
                copyOutput distance length
                symbols literals distances fuel) 0 258 fun _ => True := by
              intro length short
              have steps := bounded_bind (steady_of (bounded_next distances) (Nat.zero_le _))
                fun symbol _ => bounded_bind (steady_extended distanceTable symbol)
                  fun distance _ => bounded_bind (bounded_copy_output distance length) fun _ _ => ih
              exact steps.weaken (by omega) fun _ _ => trivial
            exact (bounded_bind (bounded_length _) copied).weaken (by omega) fun _ _ => trivial
      exact (bounded_bind (bounded_next literals) fun symbol _ => paid symbol).weaken (by omega)
        fun _ _ => trivial

theorem steady_bits_left : Steady bitsLeft := by
  intro stream value after sound ran
  cases ran
  exact ⟨sound, Nat.le_refl _, trivial⟩

theorem steady_coded (literals distances : Code) : Steady (coded literals distances) :=
  steady_bind steady_bits_left fun left => steady_symbols literals distances (left + 1)

theorem steady_align : Steady align := by
  intro stream value after sound ran
  cases ran
  obtain ⟨input, used, output⟩ := stream
  obtain ⟨low, present⟩ := sound
  rw [Stream.align]
  dsimp only at low present ⊢
  by_cases whole : used = 0
  · rw [if_pos whole]
    exact ⟨⟨low, present⟩, Nat.le_refl _, trivial⟩
  · rw [if_neg whole]
    refine ⟨⟨Nat.zero_lt_succ 7, .inl rfl⟩, ?_, trivial⟩
    simp only [Stream.reach, Stream.unread, List.length_drop]
    omega

theorem bits_used (n : Nat) (stream : Stream) (value : Nat) (after : Stream)
    (low : stream.used < 8) (ran : bits n stream = .ok value after) :
    after.used = (stream.used + n) % 8 := by
  induction n generalizing stream value with
  | zero =>
      cases ran
      exact (Nat.mod_eq_of_lt low).symm
  | succ n ih =>
      obtain ⟨first, middle, bitRan, othersRan⟩ := (run_bind_ok_iff _ _ _ _ _).mp ran
      obtain ⟨others, last, restRan, shape⟩ := (run_bind_ok_iff _ _ _ _ _).mp othersRan
      cases shape
      have moved : middle.used = (stream.used + 1) % 8 := by
        obtain ⟨input, used, output⟩ := stream
        cases input with
        | nil => cases bitRan
        | cons byte rest =>
            dsimp only at low ⊢
            by_cases full : used = 7
            · rw [bit] at bitRan
              simp only [if_pos full] at bitRan
              cases bitRan
              rw [full]
            · rw [bit] at bitRan
              simp only [if_neg full] at bitRan
              cases bitRan
              dsimp only
              omega
      rw [ih middle others (by omega) restRan, moved]
      omega

theorem copy_input_reach (n : Nat) (stream after : Stream) (whole : stream.used = 0)
    (ran : copyInput n stream = .ok () after) : after.Sound ∧ after.reach ≤ stream.reach := by
  obtain ⟨input, used, output⟩ := stream
  cases whole
  rw [copyInput] at ran
  dsimp only at ran
  by_cases enough : (input.take n).length = n
  · rw [if_pos enough] at ran
    cases ran
    refine ⟨⟨Nat.zero_lt_succ 7, .inl rfl⟩, ?_⟩
    rw [List.length_take] at enough
    have size : (output ++ input.take n).size = output.size + (input.take n).length := by
      rw [← Array.length_toList, Array.toList_appendList, List.length_append, Array.length_toList]
    simp only [Stream.reach, Stream.unread, List.length_drop, size, List.length_take]
    omega
  · rw [if_neg enough] at ran
    cases ran

theorem steady_stored : Steady stored := by
  intro stream value after sound ran
  obtain ⟨_, aligned, alignRan, ran⟩ := (run_bind_ok_iff _ _ _ _ _).mp ran
  obtain ⟨length, middle, lengthRan, ran⟩ := (run_bind_ok_iff _ _ _ _ _).mp ran
  obtain ⟨complement, last, complementRan, ran⟩ := (run_bind_ok_iff _ _ _ _ _).mp ran
  have whole : aligned.used = 0 := by
    cases alignRan
    rw [Stream.align]
    split
    · assumption
    · rfl
  have middleWhole := bits_used 16 aligned length middle (by omega) lengthRan
  have lastWhole := bits_used 16 middle complement last (by omega) complementRan
  obtain ⟨alignedSound, alignedReach, -⟩ := steady_align stream _ aligned sound alignRan
  obtain ⟨middleSound, middleReach, -⟩ := steady_bits 16 aligned _ middle alignedSound lengthRan
  obtain ⟨lastSound, lastReach, -⟩ := steady_bits 16 middle _ last middleSound complementRan
  by_cases fits : length + complement = 0xFFFF
  · rw [if_pos fits] at ran
    obtain ⟨afterSound, afterReach⟩ := copy_input_reach length last after (by omega) ran
    exact ⟨afterSound, by omega, trivial⟩
  · rw [if_neg fits] at ran
    cases ran

theorem steady_times {action : Unpack α} (steady : Steady action) (n : Nat) :
    Steady (times n action) := by
  induction n with
  | zero => exact steady_pure []
  | succ n ih => exact steady_bind steady fun _ => steady_bind ih fun _ => steady_pure _

theorem steady_code_lengths (code : Code) (total fuel : Nat) (lengths : List Nat) :
    Steady (codeLengths code total fuel lengths) := by
  induction fuel generalizing lengths with
  | zero => exact steady_throw .corrupt
  | succ fuel ih =>
      rw [codeLengths.eq_def]
      dsimp only
      apply steady_ite (steady_pure _)
      apply steady_check
      apply steady_bind (steady_of (bounded_next code) (Nat.zero_le _))
      intro symbol
      apply steady_ite (ih _)
      apply steady_ite
      · cases lengths with
        | nil => exact steady_throw .corrupt
        | cons last others => exact steady_bind (steady_bits 2) fun _ => ih _
      · apply steady_ite
        · exact steady_bind (steady_map _ (steady_bits 3)) fun _ => ih _
        · exact steady_bind (steady_map _ (steady_bits 7)) fun _ => ih _

theorem steady_dynamic : Steady dynamic := by
  apply steady_bind (steady_bits 5)
  intro literalCount
  apply steady_bind (steady_bits 5)
  intro distanceCount
  apply steady_bind (steady_bits 4)
  intro lengthCount
  apply steady_check
  apply steady_bind (steady_times (steady_bits 3) _)
  intro given
  apply steady_check
  apply steady_bind (steady_code_lengths _ _ _ _)
  intro lengths
  apply steady_check
  exact steady_coded _ _

theorem steady_blocks (fuel : Nat) : Steady (blocks fuel) := by
  induction fuel with
  | zero => exact steady_throw .corrupt
  | succ fuel ih =>
      have next : ∀ last : Nat, Steady (if last = 1 then pure () else blocks fuel : Unpack Unit) :=
        fun last => steady_ite (steady_pure ()) ih
      apply steady_bind (steady_of bounded_bit (Nat.zero_le _))
      intro last
      apply steady_bind (steady_bits 2)
      intro kind
      match kind with
      | 0 => exact steady_bind steady_stored fun _ => next last
      | 1 => exact steady_bind (steady_coded _ _) fun _ => next last
      | 2 => exact steady_bind steady_dynamic fun _ => next last
      | _ + 3 => exact steady_bind (steady_throw .corrupt) fun _ => next last

end Unpack

end ExecCounts.Deflate

namespace ExecCounts.Zlib

open Deflate Unpack

theorem steady_header : Steady header := by
  apply steady_bind (steady_bits 8)
  intro method
  apply steady_bind (steady_bits 8)
  intro flags
  exact steady_ite (steady_throw .corrupt) (steady_pure ())

theorem steady_trailer : Steady trailer := by
  apply steady_bind steady_align
  intro _
  apply steady_bind (steady_bits 8)
  intro a
  apply steady_bind (steady_bits 8)
  intro b
  apply steady_bind (steady_bits 8)
  intro c
  apply steady_bind (steady_bits 8)
  intro d
  have looked : Steady (get : Unpack Stream) := by
    intro stream value after sound ran
    cases ran
    exact ⟨sound, Nat.le_refl _, trivial⟩
  apply steady_bind looked
  intro stream
  exact steady_ite (steady_throw .corrupt) (steady_pure ())

theorem steady_expand : Steady expand := by
  apply steady_bind steady_header
  intro _
  apply steady_bind (steady_bind steady_bits_left fun left => steady_blocks (left + 1))
  intro _
  exact steady_trailer

theorem inflate_length (payload output : Bytes) (complete : inflate payload = .complete output) :
    output.length ≤ 2064 * payload.length := by
  rw [inflate] at complete
  cases ran : expand (Stream.ofBytes payload) with
  | ok value stream =>
      rw [ran] at complete
      cases complete
      have reach := (steady_expand _ value stream (Stream.sound_of_bytes payload) ran).2.1
      rw [Stream.reach_of_bytes, Stream.reach] at reach
      rw [Array.length_toList]
      omega
  | error halt stream =>
      rw [ran] at complete
      cases halt <;> cases complete

end ExecCounts.Zlib
