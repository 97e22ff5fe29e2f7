import ExecCounts.Proofs.Local
import ExecCounts.Proofs.Placed

set_option autoImplicit false

namespace ExecCounts

def Bytes.overwrite (data : Bytes) (start : Nat) (patch : Bytes) : Bytes :=
  data.take start ++ (patch ++ data.drop (start + patch.length))

namespace Bytes

variable {data patch : Bytes} {start : Nat} (inside : start + patch.length ≤ data.length)

include inside

theorem length_overwrite : (data.overwrite start patch).length = data.length := by
  rw [overwrite, List.length_append, List.length_append, List.length_take_of_le (by omega),
    List.length_drop]
  omega

theorem overwrite_drop : (data.overwrite start patch).drop start =
    patch ++ data.drop (start + patch.length) := by
  have length : (data.take start).length = start := List.length_take_of_le (by omega)
  rw [overwrite, List.drop_left' length]

theorem overwrite_behind (offset : Nat) (behind : start + patch.length ≤ offset) :
    (data.overwrite start patch).drop offset = data.drop offset := by
  obtain ⟨distance, rfl⟩ := Nat.exists_eq_add_of_le behind
  rw [Nat.add_assoc, ← List.drop_drop, overwrite_drop inside, ← List.drop_drop, List.drop_left,
    List.drop_drop, Nat.add_assoc]

theorem overwrite_before (offset n : Nat) (before : offset + n ≤ start) :
    ((data.overwrite start patch).drop offset).take n = (data.drop offset).take n := by
  have length : (data.take start).length = start := List.length_take_of_le (by omega)
  rw [overwrite, List.drop_append_of_le_length (by omega), List.take_append_of_le_length
    (by rw [List.length_drop]; omega), List.drop_take, List.take_take, Nat.min_eq_left (by omega)]

omit inside in
theorem overwrite_append_right (before : Bytes) :
    overwrite (before ++ data) (before.length + start) patch = before ++ data.overwrite start patch := by
  rw [overwrite, overwrite, List.take_length_add_append, Nat.add_assoc,
    List.drop_length_add_append, List.append_assoc]

theorem overwrite_append_left (behind : Bytes) :
    overwrite (data ++ behind) start patch = data.overwrite start patch ++ behind := by
  rw [overwrite, overwrite, List.take_append_of_le_length (by omega),
    List.drop_append_of_le_length inside]
  simp only [List.append_assoc]

end Bytes

theorem Bytes.flat_map_overwrite {α : Type} (f : α → Bytes) (size : Nat) (values : List α)
    (each : ∀ value ∈ values, (f value).length = size) (index : Nat) (value changed : α)
    (found : values[index]? = some value) (start : Nat) (patch : Bytes)
    (inside : start + patch.length ≤ (f value).length)
    (shape : f changed = (f value).overwrite start patch) :
    overwrite (values.flatMap f) (index * size + start) patch =
      (values.set index changed).flatMap f := by
  induction values generalizing index with
  | nil => cases found
  | cons first rest ih =>
      obtain ⟨own, others⟩ := List.forall_mem_cons.mp each
      rw [List.flatMap_cons]
      cases index with
      | zero =>
          cases found
          rw [Nat.zero_mul, Nat.zero_add, overwrite_append_left inside, List.set_cons_zero,
            List.flatMap_cons, shape]
      | succ index =>
          have moved : (index + 1) * size + start = (f first).length + (index * size + start) := by
            rw [own, Nat.succ_mul]
            omega
          rw [moved, overwrite_append_right, ih others index found, List.set_cons_succ,
            List.flatMap_cons]

theorem Placed.overwrite {data piece patch : Bytes} {offset start : Nat} (placed : Placed data offset piece)
    (inside : start + patch.length ≤ data.length)
    (apart : offset + piece.length ≤ start ∨ start + patch.length ≤ offset) :
    Placed (data.overwrite start patch) offset piece := by
  have within := placed.within
  apply Placed.of_slice
  · rwa [Bytes.length_overwrite inside]
  · obtain before | behind := apart
    · rw [Bytes.overwrite_before inside _ _ before, placed.slice]
    · rw [Bytes.overwrite_behind inside _ behind, placed.slice]

structure Cursor.Damaged (start : Nat) (patch : Bytes) (cursor other : Cursor) : Prop where
  inside : start + patch.length ≤ cursor.data.length
  data : other.data = cursor.data.overwrite start patch
  order : other.order = cursor.order
  offset : other.offset = cursor.offset

namespace Cursor.Damaged

variable {start : Nat} {patch : Bytes} {cursor other : Cursor}
  (damaged : cursor.Damaged start patch other)

include damaged

theorem rest_behind (behind : start + patch.length ≤ cursor.offset) : other.rest = cursor.rest := by
  rw [other.rest_eq, cursor.rest_eq, damaged.data, damaged.offset,
    Bytes.overwrite_behind damaged.inside _ behind]

theorem rest_apart (taken others : Bytes) (split : cursor.rest = taken ++ others)
    (apart : cursor.offset + taken.length ≤ start ∨ start + patch.length ≤ cursor.offset) :
    ∃ rest, other.rest = taken ++ rest := by
  obtain before | behind := apart
  · have same := Bytes.overwrite_before damaged.inside _ _ before
    rw [← damaged.data, ← damaged.offset, ← other.rest_eq, damaged.offset, ← cursor.rest_eq, split,
      List.take_left] at same
    refine ⟨other.rest.drop taken.length, ?_⟩
    calc other.rest
        = other.rest.take taken.length ++ other.rest.drop taken.length :=
          (List.take_append_drop _ _).symm
      _ = taken ++ other.rest.drop taken.length := by rw [same]
  · exact ⟨others, (damaged.rest_behind behind).trans split⟩

end Cursor.Damaged

theorem Read.Local.damaged {α : Type} {value : Read α} (settled : Read.Local value) {start : Nat}
    {patch : Bytes} {cursor other after : Cursor} {result : α}
    (damaged : cursor.Damaged start patch other) (ran : value cursor = .ok result after)
    (apart : after.offset ≤ start ∨ start + patch.length ≤ cursor.offset) :
    ∃ left, value other = .ok result left ∧ after.Damaged start patch left := by
  obtain ⟨taken, others, split, data, moved, transfers⟩ := settled cursor result after ran
  rw [moved] at apart
  obtain ⟨rest, remaining⟩ := damaged.rest_apart taken others split apart
  obtain ⟨left, leftRan, leftData, leftOrder, leftOffset⟩ :=
    transfers other rest damaged.order damaged.offset remaining
  refine ⟨left, leftRan, ?_, ?_, leftOrder, leftOffset⟩
  · rw [data]
    exact damaged.inside
  · rw [leftData, data]
    exact damaged.data

theorem Read.bytes_damaged {start : Nat} {patch taken : Bytes} {cursor other after : Cursor} {n : Nat}
    (damaged : cursor.Damaged start patch other) (placed : cursor.offset = start)
    (fits : patch.length = n) (ran : Read.bytes n cursor = .ok taken after) :
    ∃ left, Read.bytes n other = .ok patch left ∧ after.Damaged start patch left := by
  obtain ⟨-, -, moved⟩ := Read.bytes_ran ran
  have remaining : other.rest = patch ++ cursor.data.drop (start + patch.length) := by
    rw [other.rest_eq, damaged.data, damaged.offset, placed, Bytes.overwrite_drop damaged.inside]
  obtain ⟨left, leftRan, leftData, leftOrder, leftOffset⟩ :=
    Read.bytes_yields_of_length fits other rfl rfl remaining
  refine ⟨left, leftRan, ?_, ?_, ?_, ?_⟩
  · rw [moved.data]
    exact damaged.inside
  · rw [leftData, moved.data, damaged.data]
  · rw [leftOrder, moved.order, damaged.order]
  · rw [leftOffset, moved.offset, damaged.offset, fits]

theorem Read.seek_damaged {start offset : Nat} {patch : Bytes} {cursor other after : Cursor}
    (damaged : cursor.Damaged start patch other) (ran : Read.seek offset cursor = .ok () after) :
    ∃ left, Read.seek offset other = .ok () left ∧ after.Damaged start patch left := by
  obtain ⟨data, order, placed⟩ := Read.seek_ran ran
  have within : offset ≤ other.data.length := by
    rw [damaged.data, Bytes.length_overwrite damaged.inside, ← data, ← placed]
    exact after.offset_le
  refine ⟨other.move offset within, by rw [Read.seek, dif_pos within], ?_, ?_, ?_, placed.symm⟩
  · rw [data]
    exact damaged.inside
  · rw [data]
    exact damaged.data
  · rw [order]
    exact damaged.order

end ExecCounts
