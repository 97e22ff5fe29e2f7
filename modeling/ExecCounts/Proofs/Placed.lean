import ExecCounts.Proofs.Reading

set_option autoImplicit false

namespace ExecCounts

def Placed (data : Bytes) (offset : Nat) (piece : Bytes) : Prop :=
  ∃ before after : Bytes, data = before ++ (piece ++ after) ∧ before.length = offset

namespace Placed

variable {data piece : Bytes} {offset : Nat}

theorem first (left right : Bytes) (placed : Placed data offset (left ++ right)) :
    Placed data offset left := by
  obtain ⟨before, after, shape, length⟩ := placed
  exact ⟨before, right ++ after, by rw [shape, List.append_assoc], length⟩

theorem second (left right : Bytes) (placed : Placed data offset (left ++ right)) :
    Placed data (offset + left.length) right := by
  obtain ⟨before, after, shape, length⟩ := placed
  refine ⟨before ++ left, after, ?_, by rw [List.length_append, length]⟩
  simp only [shape, List.append_assoc]

theorem within (placed : Placed data offset piece) : offset + piece.length ≤ data.length := by
  obtain ⟨before, after, shape, length⟩ := placed
  simp only [shape, List.length_append]
  omega

theorem slice (placed : Placed data offset piece) : (data.drop offset).take piece.length = piece := by
  obtain ⟨before, after, shape, length⟩ := placed
  rw [shape, ← length, List.drop_left, List.take_left]

theorem of_slice (within : offset + piece.length ≤ data.length)
    (same : (data.drop offset).take piece.length = piece) : Placed data offset piece := by
  have split := List.take_append_drop piece.length (data.drop offset)
  rw [same] at split
  refine ⟨data.take offset, (data.drop offset).drop piece.length, ?_,
    List.length_take_of_le (by omega)⟩
  rw [split, List.take_append_drop]

theorem inside {inner : Bytes} {distance : Nat} (placed : Placed data offset piece)
    (innerPlaced : Placed piece distance inner) : Placed data (offset + distance) inner := by
  obtain ⟨before, after, shape, length⟩ := placed
  obtain ⟨innerBefore, innerAfter, innerShape, innerLength⟩ := innerPlaced
  refine ⟨before ++ innerBefore, innerAfter ++ after, ?_, ?_⟩
  · simp only [shape, innerShape, List.append_assoc]
  · rw [List.length_append, length, innerLength]

theorem part (parts : List Bytes) (index : Nat) (found : parts[index]? = some piece) :
    Placed parts.flatten (parts.take index).flatten.length piece := by
  obtain ⟨bound, rfl⟩ := List.getElem?_eq_some_iff.mp found
  refine ⟨(parts.take index).flatten, (parts.drop (index + 1)).flatten, ?_, rfl⟩
  rw [← List.flatten_cons, List.getElem_cons_drop, ← List.flatten_append, List.take_append_drop]

end Placed

namespace Read

variable {α β : Type} {order : ByteOrder} {data piece : Bytes} {offset : Nat}

theorem run_bind {start : Nat} {bytes rest : Bytes} {first : Read α} {next : α → Read β} {value : α}
    {result : β} (yields : Yields first order start bytes rest value) (cursor : Cursor)
    (ordered : cursor.order = order) (placed : cursor.offset = start)
    (remaining : cursor.rest = bytes ++ rest)
    (runs : ∀ middle : Cursor, middle.data = cursor.data → middle.order = order →
      middle.offset = start + bytes.length → middle.rest = rest →
        ∃ after : Cursor, next value middle = .ok result after) :
    ∃ after : Cursor, (first >>= next) cursor = .ok result after := by
  obtain ⟨middle, ran, data, middleOrder, moved⟩ := yields cursor ordered placed remaining
  have left := rest_after cursor middle bytes remaining data (by rw [moved, placed])
  obtain ⟨after, ranOn⟩ := runs middle data middleOrder moved left
  refine ⟨after, ?_⟩
  rw [run_bind_of_ok ran, ranOn]

theorem run_bind_nil {first : Read α} {next : α → Read β} {value : α} {result : β}
    (cursor : Cursor) (yields : Yields first cursor.order cursor.offset [] cursor.rest value)
    (runs : ∃ after : Cursor, next value cursor = .ok result after) :
    ∃ after : Cursor, (first >>= next) cursor = .ok result after := by
  refine run_bind yields cursor rfl rfl rfl ?_
  intro middle data ordered placed _
  rwa [Cursor.ext_position data ordered placed]

theorem run_seek {next : Unit → Read α} {result : α} (placed : Placed data offset piece)
    (cursor : Cursor) (sameData : cursor.data = data) (ordered : cursor.order = order)
    (runs : ∀ (middle : Cursor) (rest : Bytes), middle.data = data → middle.order = order →
      middle.offset = offset → middle.rest = piece ++ rest →
        ∃ after : Cursor, next () middle = .ok result after) :
    ∃ after : Cursor, (seek offset >>= next) cursor = .ok result after := by
  have bound := placed.within
  obtain ⟨before, after, shape, length⟩ := placed
  have within : offset ≤ cursor.data.length := by
    rw [sameData]
    omega
  have remaining : (cursor.move offset within).rest = piece ++ after := by
    rw [Cursor.rest_eq]
    change cursor.data.drop offset = _
    rw [sameData, shape, ← length, List.drop_left]
  obtain ⟨final, ran⟩ := runs (cursor.move offset within) after sameData ordered rfl remaining
  refine ⟨final, ?_⟩
  have sought : seek offset cursor = .ok () (cursor.move offset within) := by
    rw [seek, dif_pos within]
  rw [run_bind_of_ok sought, ran]

theorem seek_placed {next : Unit → Read α} {result : α} (placed : Placed data offset piece)
    (yields : ∀ rest, Yields (next ()) order offset piece rest result) (cursor : Cursor)
    (sameData : cursor.data = data) (ordered : cursor.order = order) :
    ∃ after : Cursor, (seek offset >>= next) cursor = .ok result after := by
  refine run_seek placed cursor sameData ordered ?_
  intro middle rest _ ordered moved remaining
  obtain ⟨after, ran, -⟩ := yields rest middle ordered moved remaining
  exact ⟨after, ran⟩

theorem read_of_run {value : Read α} {result : α} {cursor : Cursor}
    (runs : ∃ after : Cursor, value cursor = .ok result after) : cursor.read value = .ok result := by
  obtain ⟨after, ran⟩ := runs
  simp only [Cursor.read, ran]

end Read

end ExecCounts
