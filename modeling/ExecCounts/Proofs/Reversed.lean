import ExecCounts.Proofs.Local
import ExecCounts.Proofs.Relocated

set_option autoImplicit false

namespace ExecCounts

namespace ByteOrder

def other : ByteOrder → ByteOrder
  | .little => .big
  | .big => .little

theorem read_other (order : ByteOrder) (bytes : Bytes) :
    order.other.read bytes.reverse = order.read bytes := by
  cases order with
  | little => exact congrArg Bytes.toNat (List.reverse_reverse bytes)
  | big => rfl

end ByteOrder

inductive Piece where
  | number (width : Nat)
  -- Bytes that are no number, or one that has no byte order.
  | kept (length : Nat)

/-- The bytes with every number among the pieces turned around; what is behind the pieces stays. -/
def Bytes.reverseNumbers : List Piece → Bytes → Bytes
  | [], bytes => bytes
  | .number width :: pieces, bytes =>
      (bytes.take width).reverse ++ reverseNumbers pieces (bytes.drop width)
  | .kept length :: pieces, bytes =>
      bytes.take length ++ reverseNumbers pieces (bytes.drop length)

theorem Bytes.length_reverse_numbers (pieces : List Piece) (bytes : Bytes) :
    (reverseNumbers pieces bytes).length = bytes.length := by
  induction pieces generalizing bytes with
  | nil => rfl
  | cons piece pieces ih =>
      cases piece <;>
        simp only [reverseNumbers, List.length_append, List.length_reverse, List.length_take,
          List.length_drop, ih] <;> omega

structure Cursor.Reversed (pieces : List Piece) (cursor turned : Cursor) : Prop where
  rest : turned.rest = Bytes.reverseNumbers pieces cursor.rest
  offset : turned.offset = cursor.offset
  order : turned.order = cursor.order.other

theorem Cursor.Reversed.relocated {cursor turned : Cursor} (reversed : cursor.Reversed [] turned) :
    cursor.Relocated 0 (fun own order => order = own.other) turned :=
  ⟨reversed.rest, reversed.offset, reversed.order⟩

namespace Read

variable {α β : Type} {pieces : List Piece} {cursor turned after : Cursor}

def Orderless (value : Read α) : Prop :=
  ∀ orders : ByteOrder → ByteOrder → Prop, Portable 0 orders value

theorem kept_reversed {value : Read α} (settled : Local value) (free : Orderless value) {result : α}
    {n length : Nat} (reversed : cursor.Reversed (.kept (n + length) :: pieces) turned)
    (ran : value cursor = .ok result after) (moved : after.offset = cursor.offset + n) :
    ∃ left, value turned = .ok result left ∧ after.Reversed (.kept length :: pieces) left := by
  obtain ⟨taken, others, split, data, offset, transfers⟩ := settled cursor result after ran
  have size : taken.length = n := by omega
  have behind := rest_after cursor after taken split data offset
  have remaining : turned.rest = taken ++ Bytes.reverseNumbers (.kept length :: pieces) others := by
    rw [reversed.rest, split, Bytes.reverseNumbers, Bytes.reverseNumbers, ← size,
      List.take_length_add_append, List.drop_length_add_append, List.append_assoc]
  -- The read is first taken to the turned data in its own byte order, and then to the other one.
  obtain ⟨middle, middleRan, middleData, middleOrder, middleOffset⟩ :=
    transfers (turned.withOrder cursor.order) _ rfl reversed.offset remaining
  have middleRest := rest_after (turned.withOrder cursor.order) middle taken remaining middleData
    (by rw [middleOffset, offset, ← reversed.offset]; rfl)
  obtain ⟨failure, left, leftTurned, failed, -⟩ |
    ⟨found, between, _, left, foundRan, turnedRan, rfl, onward⟩ :=
    free (fun own order => order = own.other) (turned.withOrder cursor.order) turned
      ⟨rfl, rfl, reversed.order⟩
  · rw [middleRan] at failed
    cases failed
  · cases middleRan.symm.trans foundRan
    refine ⟨left, turnedRan, ?_, onward.offset.trans middleOffset, ?_⟩
    · rw [onward.rest, middleRest, behind]
    · rw [onward.order, middleOrder]

theorem all_kept_reversed {value : Read α} (settled : Local value) (free : Orderless value) {result : α}
    {n : Nat} (reversed : cursor.Reversed (.kept n :: pieces) turned)
    (ran : value cursor = .ok result after) (moved : after.offset = cursor.offset + n) :
    ∃ left, value turned = .ok result left ∧ after.Reversed pieces left := by
  have whole : cursor.Reversed (.kept (n + 0) :: pieces) turned := reversed
  obtain ⟨left, turnedRan, behind⟩ := kept_reversed settled free whole ran moved
  exact ⟨left, turnedRan, behind.rest, behind.offset, behind.order⟩

theorem number_reversed {width n : Nat} (reversed : cursor.Reversed (.number width :: pieces) turned)
    (ran : number width cursor = .ok n after) :
    ∃ left, number width turned = .ok n left ∧ after.Reversed pieces left := by
  obtain ⟨current, middle, getRan, rest⟩ := (bind_ran_iff _ _ _).mp ran
  cases getRan
  obtain ⟨taken, final, bytesRan, same⟩ := (bind_ran_iff _ _ _).mp rest
  obtain ⟨rfl, rfl⟩ := (pure_ran_iff _ _).mp same
  obtain ⟨shape, length, moved⟩ := bytes_ran bytesRan
  rw [← cursor.rest_eq] at shape
  have remaining := reversed.rest
  rw [Bytes.reverseNumbers, ← shape] at remaining
  have turnedLength : taken.reverse.length = width := by rw [List.length_reverse, length]
  obtain ⟨left, turnedRan, data, order, offset⟩ :=
    number_bytes_yields turnedLength turned rfl rfl remaining
  rw [reversed.order, ByteOrder.read_other] at turnedRan
  refine ⟨left, turnedRan, ?_, ?_, ?_⟩
  · rw [rest_after turned left _ remaining data offset, final.rest_eq, moved.data, moved.offset,
      ← List.drop_drop, ← cursor.rest_eq]
  · rw [offset, turnedLength, reversed.offset, moved.offset]
  · rw [order, reversed.order, moved.order]

theorem map_number_reversed (f : Nat → α) {width : Nat} {word : α}
    (reversed : cursor.Reversed (.number width :: pieces) turned)
    (ran : (f <$> number width) cursor = .ok word after) :
    ∃ left, (f <$> number width) turned = .ok word left ∧ after.Reversed pieces left := by
  obtain ⟨n, numberRan, rfl⟩ := map_ran ran
  obtain ⟨left, turnedRan, behind⟩ := number_reversed reversed numberRan
  refine ⟨left, ?_, behind⟩
  rw [map_eq_pure_bind, run_bind_of_ok turnedRan]
  rfl

theorem u32_reversed {word : UInt32} (reversed : cursor.Reversed (.number 4 :: pieces) turned)
    (ran : u32 cursor = .ok word after) :
    ∃ left, u32 turned = .ok word left ∧ after.Reversed pieces left :=
  map_number_reversed UInt32.ofNat reversed ran

theorem u64_reversed {word : UInt64} (reversed : cursor.Reversed (.number 8 :: pieces) turned)
    (ran : u64 cursor = .ok word after) :
    ∃ left, u64 turned = .ok word left ∧ after.Reversed pieces left :=
  map_number_reversed UInt64.ofNat reversed ran

theorem position_placed (placed : turned.offset = cursor.offset) :
    position turned = .ok cursor.offset turned :=
  congrArg (EStateM.Result.ok · turned) placed

end Read

end ExecCounts
