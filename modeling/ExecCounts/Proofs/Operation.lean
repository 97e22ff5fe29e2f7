import ExecCounts.Chunk
import ExecCounts.Proofs.Local

set_option autoImplicit false

namespace ExecCounts

inductive Operation : Type → Type where
  | u8 : Operation UInt8
  | u16 : Operation UInt16
  | u32 : Operation UInt32
  | u64 : Operation UInt64
  | uint (width : Width) : Operation UInt64
  | uleb : Operation UInt64
  | uleb32 : Operation UInt32
  | bytes (n : Nat) : Operation Bytes
  | text (n : Nat) : Operation String
  | ulebText : Operation String
  | skip (n : Nat) : Operation Unit
  | align (width : Nat) : Operation Unit
  | seek (offset : Nat) : Operation Unit
  | chunk : Operation Bytes

variable {α β : Type} {cursor after : Cursor} {failure : Failure}

def Operation.read : {α : Type} → Operation α → Read α
  | _, .u8 => Read.u8
  | _, .u16 => Read.u16
  | _, .u32 => Read.u32
  | _, .u64 => Read.u64
  | _, .uint width => Read.uint width
  | _, .uleb => Read.uleb
  | _, .uleb32 => Read.uleb32
  | _, .bytes n => Read.bytes n
  | _, .text n => Read.text n
  | _, .ulebText => Read.ulebText
  | _, .skip n => Read.skip n
  | _, .align width => Read.align width
  | _, .seek offset => Read.seek offset
  | _, .chunk => Chunk.read

/-- Where a failed read leaves the cursor: further on if it had begun to take bytes, and else in
place. -/
structure Cursor.LeftBy (begun : Prop) (cursor after : Cursor) : Prop where
  further : begun → cursor.offset < after.offset
  inPlace : ¬ begun → after = cursor

def Cursor.StartsNumber (cursor : Cursor) : Prop :=
  ∃ value used, Leb128.decode cursor.rest = .ok (value, used)

/-- The operation can take something before the last of what can make it fail. A read that takes its
bytes in one go has not begun when it fails. -/
def Operation.Begun (cursor : Cursor) : {α : Type} → Operation α → Prop
  | _, .text n => n ≤ cursor.remaining
  | _, .uleb32 | _, .ulebText | _, .chunk => cursor.StartsNumber
  | _, _ => False

theorem Cursor.Moved.enough {n : Nat} (moved : cursor.Moved n after) : n ≤ cursor.remaining := by
  have within := after.offset_le
  rw [moved.offset, moved.data] at within
  rw [cursor.remaining_eq]
  omega

namespace Read

theorem position_bind (next : Nat → Read α) (cursor : Cursor) :
    (position >>= next) cursor = next cursor.offset cursor := rfl

theorem bytes_failed {n : Nat} (failed : bytes n cursor = .error failure after) :
    cursor.remaining < n ∧ after = cursor := by
  rw [bytes] at failed
  split at failed
  · cases failed
  · rename_i short
    cases failed
    rw [List.length_take] at short
    refine ⟨?_, rfl⟩
    rw [Cursor.remaining]
    omega

theorem uleb_failed (failed : uleb cursor = .error failure after) :
    ¬ cursor.StartsNumber ∧ after = cursor := by
  constructor
  · rintro ⟨value, used, decoded⟩
    rw [uleb_decoded decoded] at failed
    cases failed
  · rw [uleb] at failed
    split at failed
    · cases failed
    all_goals
      cases failed
      rfl

def Stays (value : Read α) : Prop :=
  ∀ cursor failure after, value cursor = .error failure after → after = cursor

def FailsOnward (value : Read α) : Prop :=
  ∀ cursor failure after, value cursor = .error failure after → cursor.offset ≤ after.offset

theorem Stays.onward {value : Read α} (stays : Stays value) : FailsOnward value := by
  intro cursor failure after failed
  rw [stays cursor failure after failed]

theorem Stays.unbegun {value : Read α} (stays : Stays value)
    (failed : value cursor = .error failure after) :
    cursor.LeftBy False after where
  further := False.elim
  inPlace := fun _ => stays cursor failure after failed

theorem pure_stays (value : α) : Stays (pure value) := by
  intro cursor failure after failed
  cases failed

theorem throw_stays (failure : Failure) : Stays (throw failure : Read α) := by
  intro cursor other after failed
  cases failed
  rfl

theorem bytes_stays (n : Nat) : Stays (bytes n) := fun _ _ _ failed => (bytes_failed failed).2

theorem uleb_stays : Stays uleb := fun _ _ _ failed => (uleb_failed failed).2

theorem seek_stays (offset : Nat) : Stays (seek offset) := by
  intro cursor failure after failed
  rw [seek] at failed
  split at failed <;> cases failed
  rfl

theorem bind_pure_stays {first : Read α} (f : α → β) (stays : Stays first) :
    Stays (first >>= fun value => pure (f value)) := by
  intro cursor failure after failed
  rcases (run_bind_error_iff _ _ _ _ _).mp failed with own | ⟨_, _, _, later⟩
  · exact stays cursor failure after own
  · cases later

theorem map_stays {value : Read α} (f : α → β) (stays : Stays value) : Stays (f <$> value) := by
  rw [map_eq_pure_bind]
  exact bind_pure_stays f stays

theorem number_stays (width : Nat) : Stays (number width) :=
  fun cursor => bind_pure_stays cursor.order.read (bytes_stays width) cursor

theorem skip_stays (n : Nat) : Stays (skip n) := bind_pure_stays (fun _ => ()) (bytes_stays n)

theorem align_stays (width : Nat) : Stays (align width) :=
  fun cursor => skip_stays (padding cursor.offset width) cursor

section Bind

variable {first : Read α} {next : α → Read β} (stays : Stays first)
  (onward : ∀ value, FailsOnward (next value))

include stays onward

theorem bind_onward (settled : Local first) : FailsOnward (first >>= next) := by
  intro cursor failure after failed
  rcases (run_bind_error_iff _ _ _ _ _).mp failed with own | ⟨value, middle, ran, later⟩
  · exact stays.onward cursor failure after own
  · exact Nat.le_trans (settled.onward ran).2 (onward value middle failure after later)

theorem bind_failed (moves : ∀ value middle, first cursor = .ok value middle →
      cursor.offset < middle.offset)
    (failed : (first >>= next) cursor = .error failure after) :
    (∃ value middle, first cursor = .ok value middle ∧ cursor.offset < after.offset) ∨
      first cursor = .error failure cursor ∧ after = cursor := by
  rcases (run_bind_error_iff _ _ _ _ _).mp failed with own | ⟨value, middle, ran, later⟩
  · have same := stays cursor failure after own
    rw [same] at own
    exact .inr ⟨own, same⟩
  · have further := onward value middle failure after later
    exact .inl ⟨value, middle, ran, Nat.lt_of_lt_of_le (moves value middle ran) further⟩

end Bind

theorem uleb_bind_failed {next : UInt64 → Read α} (onward : ∀ word, FailsOnward (next word))
    (failed : (uleb >>= next) cursor = .error failure after) :
    cursor.LeftBy cursor.StartsNumber after := by
  have moves : ∀ word middle, uleb cursor = .ok word middle → cursor.offset < middle.offset := by
    intro word middle ran
    obtain ⟨used, decoded, moved⟩ := uleb_ran ran
    rw [moved.offset]
    exact Nat.lt_add_of_pos_right (Leb128.decode_pos _ _ _ decoded)
  rcases bind_failed uleb_stays onward moves failed with ⟨word, middle, ran, further⟩ | ⟨own, same⟩
  · obtain ⟨used, decoded, -⟩ := uleb_ran ran
    rw [← cursor.rest_eq] at decoded
    exact ⟨fun _ => further, fun none => absurd ⟨_, _, decoded⟩ none⟩
  · exact ⟨fun whole => absurd whole (uleb_failed own).1, fun _ => same⟩

theorem uleb32_failed (failed : uleb32 cursor = .error failure after) :
    cursor.LeftBy cursor.StartsNumber after := by
  rw [uleb32, position_bind] at failed
  refine uleb_bind_failed (fun word => ?_) failed
  split
  · exact (pure_stays _).onward
  · exact (throw_stays _).onward

theorem text_failed {n : Nat} (failed : text n cursor = .error failure after) :
    cursor.LeftBy (n ≤ cursor.remaining) after := by
  rw [text, position_bind] at failed
  rcases (run_bind_error_iff _ _ _ _ _).mp failed with own | ⟨taken, middle, ran, failed⟩
  · obtain ⟨short, same⟩ := bytes_failed own
    exact ⟨fun enough => absurd enough (Nat.not_le.mpr short), fun _ => same⟩
  obtain ⟨-, length, moved⟩ := bytes_ran ran
  -- The bytes are taken before it is seen whether they are text.
  cases decoded : Utf8.text? taken with
  | some text =>
      rw [decoded] at failed
      cases failed
  | none =>
      rw [decoded] at failed
      cases failed
      -- No bytes are the empty text.
      have nonempty : 0 < n := by
        apply Nat.pos_of_ne_zero
        rintro rfl
        rw [List.eq_nil_of_length_eq_zero length] at decoded
        cases decoded
      refine ⟨fun _ => ?_, fun short => absurd moved.enough short⟩
      rw [moved.offset]
      exact Nat.lt_add_of_pos_right nonempty

theorem text_onward (n : Nat) : FailsOnward (text n) := by
  intro cursor failure after failed
  obtain ⟨further, same⟩ := text_failed failed
  by_cases enough : n ≤ cursor.remaining
  · exact Nat.le_of_lt (further enough)
  · rw [same enough]

end Read

theorem Chunk.read_failed (failed : Chunk.read cursor = .error failure after) :
    cursor.LeftBy cursor.StartsNumber after := by
  rw [Chunk.read, Read.position_bind] at failed
  refine Read.uleb_bind_failed (fun size => ?_) failed
  refine Read.bind_onward Read.uleb_stays (fun compressedSize => ?_) Read.uleb_local
  split
  · exact (Read.bytes_stays _).onward
  · refine Read.bind_onward (Read.bytes_stays _) (fun stream => ?_) (Read.bytes_local _)
    split
    · exact (Read.pure_stays _).onward
    · exact (Read.throw_stays _).onward

theorem failed_read_stays_unless_begun (operation : Operation α)
    (failed : operation.read cursor = .error failure after) :
    cursor.LeftBy (operation.Begun cursor) after := by
  cases operation with
  | u8 => exact (Read.map_stays _ (Read.number_stays 1)).unbegun failed
  | u16 => exact (Read.map_stays _ (Read.number_stays 2)).unbegun failed
  | u32 => exact (Read.map_stays _ (Read.number_stays 4)).unbegun failed
  | u64 => exact (Read.map_stays _ (Read.number_stays 8)).unbegun failed
  | uint width => exact (Read.map_stays _ (Read.number_stays width.size)).unbegun failed
  | uleb => exact Read.uleb_stays.unbegun failed
  | uleb32 => exact Read.uleb32_failed failed
  | bytes n => exact (Read.bytes_stays n).unbegun failed
  | text n => exact Read.text_failed failed
  | ulebText => exact Read.uleb_bind_failed (fun length => Read.text_onward length.toNat) failed
  | skip n => exact (Read.skip_stays n).unbegun failed
  | align width => exact (Read.align_stays width).unbegun failed
  | seek offset => exact (Read.seek_stays offset).unbegun failed
  | chunk => exact Chunk.read_failed failed

theorem failed_read_stays_unless_begun_cut_text : ∃ (failure : Failure) (after : Cursor),
    Operation.ulebText.read (.little [2, 0x61]) = .error failure after ∧
      Operation.ulebText.Begun (.little [2, 0x61]) ∧ 0 < after.offset := by
  have begun : Operation.ulebText.Begun (.little [2, 0x61]) := ⟨2, 1, rfl⟩
  have failed : ∃ failure after,
      Operation.ulebText.read (.little [2, 0x61]) = .error failure after := ⟨_, _, rfl⟩
  obtain ⟨failure, after, ran⟩ := failed
  exact ⟨failure, after, ran, begun, (failed_read_stays_unless_begun .ulebText ran).further begun⟩

theorem malformed_text_skipped : ∃ (failure : Failure) (after : Cursor),
    (Operation.text 1).read (.little [0xFF]) = .error failure after ∧
      after.offset ≠ (Cursor.little [0xFF]).offset :=
  ⟨_, _, rfl, by decide⟩

end ExecCounts
