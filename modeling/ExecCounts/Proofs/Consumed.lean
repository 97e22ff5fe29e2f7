import ExecCounts.Proofs.Cut
import ExecCounts.Proofs.Operation

set_option autoImplicit false

namespace ExecCounts

variable {α : Type} {cursor after : Cursor} {result : α}

def Cursor.over (cursor : Cursor) (data : Bytes) (inside : cursor.offset ≤ data.length) : Cursor :=
  ⟨data, cursor.order, cursor.offset, data.drop cursor.offset, inside, rfl⟩

/-- What a read that ended at `after` makes of other data, with the same bytes up to there or with
an end that is missing. -/
structure Read.Consumed (value : Read α) (cursor : Cursor) (result : α) (after : Cursor) : Prop where
  settled : ∀ (data : Bytes) (inside : cursor.offset ≤ data.length)
    (reach : after.offset ≤ data.length), data.take after.offset = cursor.data.take after.offset →
      value (cursor.over data inside) = .ok result (after.over data reach)
  needed : ∀ (data missing : Bytes) (inside : cursor.offset ≤ data.length),
    cursor.data = data ++ missing → data.length < after.offset → ∃ failure left,
      value (cursor.over data inside) = .error failure left ∧ failure.kind = .truncatedInput

theorem Bytes.drop_of_take_eq {data other taken others : Bytes} {start : Nat}
    (split : data.drop start = taken ++ others)
    (same : other.take (start + taken.length) = data.take (start + taken.length)) :
    other.drop start = taken ++ other.drop (start + taken.length) := by
  have piece : (other.drop start).take taken.length = taken := by
    rw [List.take_drop, same, List.drop_take, split, Nat.add_sub_cancel_left, List.take_left]
  rw [← List.drop_drop]
  nth_rewrite 1 [← List.take_append_drop taken.length (other.drop start)]
  rw [piece]

namespace Read

theorem consumed_of_local {value : Read α} (taking : Local value)
    (survives : ∀ missing, Survives isTruncation missing value)
    (ran : value cursor = .ok result after) : Consumed value cursor result after where
  settled := by
    intro data inside reach same
    obtain ⟨taken, others, split, -, moved, again⟩ := taking cursor result after ran
    rw [cursor.rest_eq] at split
    rw [moved] at same
    have rest := Bytes.drop_of_take_eq split same
    obtain ⟨left, leftRan, leftData, leftOrder, leftOffset⟩ :=
      again (cursor.over data inside) _ rfl rfl rest
    have place : left = after.over data reach := Cursor.ext_position leftData leftOrder leftOffset
    rw [leftRan, place]
  needed := by
    intro data missing inside cut short
    have shortened : cursor.Shortened missing (cursor.over data inside) := ⟨cut, rfl, rfl⟩
    rcases survives missing cursor (cursor.over data inside) shortened result after ran with
      ⟨failure, left, failed, blamed⟩ | ⟨other, shortAfter, -, -, shortenedOn⟩
    · exact ⟨failure, left, failed, blamed⟩
    · have within := shortAfter.offset_le
      rw [shortened.same_data shortenedOn (taking.onward ran).1, shortenedOn.offset] at within
      exact absurd short (Nat.not_lt.mpr within)

theorem seek_consumed {offset : Nat} (ran : seek offset cursor = .ok () after) :
    Consumed (seek offset) cursor () after := by
  obtain ⟨-, order, rfl⟩ := seek_ran ran
  constructor
  · intro data inside reach _
    have place : (cursor.over data inside).move after.offset reach = after.over data reach :=
      Cursor.ext_position rfl order.symm rfl
    rw [seek]
    exact (dif_pos reach).trans (congrArg (EStateM.Result.ok ()) place)
  · intro data missing inside _ short
    rw [seek]
    exact ⟨_, _, dif_neg (Nat.not_le.mpr short), rfl⟩

end Read

namespace Chunk

theorem read_local : Read.Local read := by
  refine Read.bind_local Read.position_local fun start => ?_
  refine Read.bind_local Read.uleb_local fun size => ?_
  refine Read.bind_local Read.uleb_local fun compressedSize => ?_
  split
  · exact Read.bytes_local _
  · refine Read.bind_local (Read.bytes_local _) fun stream => ?_
    split
    · exact Read.pure_local _
    · exact Read.throw_local _

theorem read_survives {blame : FailureKind → Prop} (truncation : blame .truncatedInput)
    (missing : Bytes) : Read.Survives blame missing read := by
  refine Read.bind_survives Read.position_survives fun start => ?_
  refine Read.bind_survives (Read.uleb_survives truncation) fun size => ?_
  refine Read.bind_survives (Read.uleb_survives truncation) fun compressedSize => ?_
  split
  · exact Read.bytes_survives truncation _
  · refine Read.bind_survives (Read.bytes_survives truncation _) fun stream => ?_
    split
    · exact Read.pure_degrades rfl
    · exact Read.throw_degrades _ _

end Chunk

open Read in
theorem consumed_bytes_settle_read (operation : Operation α)
    (ran : operation.read cursor = .ok result after) :
    Read.Consumed operation.read cursor result after := by
  cases operation with
  | u8 =>
      exact consumed_of_local (map_local _ (number_local 1))
        (fun missing => map_survives _ (number_survives truncated 1)) ran
  | u16 =>
      exact consumed_of_local (map_local _ (number_local 2))
        (fun missing => map_survives _ (number_survives truncated 2)) ran
  | u32 => exact consumed_of_local u32_local (fun missing => u32_survives truncated) ran
  | u64 => exact consumed_of_local u64_local (fun missing => u64_survives truncated) ran
  | uint width =>
      exact consumed_of_local (uint_local width) (fun missing => uint_survives truncated width) ran
  | uleb => exact consumed_of_local uleb_local (fun missing => uleb_survives truncated) ran
  | uleb32 => exact consumed_of_local uleb32_local (fun missing => uleb32_survives truncated) ran
  | bytes n => exact consumed_of_local (bytes_local n) (fun missing => bytes_survives truncated n) ran
  | text n => exact consumed_of_local (text_local n) (fun missing => text_survives truncated n) ran
  | ulebText =>
      exact consumed_of_local uleb_text_local (fun missing => uleb_text_survives truncated) ran
  | skip n => exact consumed_of_local (skip_local n) (fun missing => skip_survives truncated n) ran
  | align width =>
      exact consumed_of_local (align_local width) (fun missing => align_survives truncated width) ran
  | seek offset => exact seek_consumed ran
  | chunk => exact consumed_of_local Chunk.read_local (Chunk.read_survives truncated) ran

/-- A chunk of two bytes behind another byte and before a third. -/
def insideChunk : Cursor := (Cursor.little [9, 2, 0, 0x61, 0x62, 5]).move 1 (by decide)

theorem consumed_bytes_settle_read_chunk :
    (∃ after, Operation.chunk.read insideChunk = .ok [0x61, 0x62] after ∧ after.offset = 5) ∧
      (∃ left, Operation.chunk.read (insideChunk.over [9, 2, 0, 0x61, 0x62, 7, 7] (by decide)) =
        .ok [0x61, 0x62] left ∧ left.offset = 5) ∧
      ∃ failure left, Operation.chunk.read (insideChunk.over [9, 2, 0, 0x61] (by decide)) =
        .error failure left ∧ failure.kind = .truncatedInput := by
  have whole : ∃ after, Operation.chunk.read insideChunk = .ok [0x61, 0x62] after ∧
      after.offset = 5 := ⟨_, rfl, rfl⟩
  obtain ⟨after, ran, reached⟩ := whole
  have consumed := consumed_bytes_settle_read .chunk ran
  refine ⟨⟨after, ran, reached⟩, ⟨_, consumed.settled _ _ ?_ ?_, reached⟩, ?_⟩
  · rw [reached]
    decide
  · rw [reached]
    rfl
  · exact consumed.needed _ [0x62, 5] _ rfl (by rw [reached]; decide)

end ExecCounts
