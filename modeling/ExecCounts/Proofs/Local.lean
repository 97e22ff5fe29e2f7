import ExecCounts.Proofs.Reading
import ExecCounts.Proofs.Taken

set_option autoImplicit false

namespace ExecCounts.Read

variable {α β : Type}

/-- The bytes that a read takes settle what it makes of them, so that a change elsewhere goes
unnoticed. -/
def Local (value : Read α) : Prop :=
  ∀ (cursor : Cursor) (result : α) (after : Cursor), value cursor = .ok result after →
    ∃ taken others : Bytes, cursor.rest = taken ++ others ∧ after.data = cursor.data ∧
      after.offset = cursor.offset + taken.length ∧
      ∀ (other : Cursor) (rest : Bytes), other.order = cursor.order →
        other.offset = cursor.offset → other.rest = taken ++ rest →
          ∃ left : Cursor, value other = .ok result left ∧ left.data = other.data ∧
            left.order = after.order ∧ left.offset = after.offset

theorem local_of_yields {value : Read α}
    (settled : ∀ cursor result after, value cursor = .ok result after →
      ∃ taken others : Bytes, cursor.rest = taken ++ others ∧
        ∀ rest, Yields value cursor.order cursor.offset taken rest result) : Local value := by
  intro cursor result after ran
  obtain ⟨taken, others, split, yields⟩ := settled cursor result after ran
  obtain ⟨same, sameRan, data, order, offset⟩ := yields others cursor rfl rfl split
  cases ran.symm.trans sameRan
  refine ⟨taken, others, split, data, offset, ?_⟩
  intro other rest ordered placed remaining
  obtain ⟨left, leftRan, leftData, leftOrder, leftOffset⟩ :=
    yields rest other ordered placed remaining
  exact ⟨left, leftRan, leftData, leftOrder.trans order.symm, leftOffset.trans offset.symm⟩

theorem Local.onward {value : Read α} (settled : Local value) {cursor after : Cursor} {result : α}
    (ran : value cursor = .ok result after) :
    after.data = cursor.data ∧ cursor.offset ≤ after.offset := by
  obtain ⟨taken, -, -, data, moved, -⟩ := settled cursor result after ran
  rw [moved]
  exact ⟨data, Nat.le_add_right _ _⟩

theorem pure_local (value : α) : Local (pure value) := by
  apply local_of_yields
  intro cursor result after ran
  obtain ⟨rfl, -⟩ := (pure_ran_iff _ _).mp ran
  exact ⟨[], cursor.rest, rfl, fun rest => pure_yields value⟩

theorem throw_local (failure : Failure) : Local (throw failure : Read α) := by
  intro cursor result after ran
  cases ran

theorem bind_local {first : Read α} {next : α → Read β} (head : Local first)
    (tail : ∀ value, Local (next value)) : Local (first >>= next) := by
  intro cursor result after ran
  obtain ⟨value, middle, firstRan, nextRan⟩ := (bind_ran_iff _ _ _).mp ran
  obtain ⟨taken, others, split, data, moved, settled⟩ := head cursor value middle firstRan
  obtain ⟨more, left, moreSplit, moreData, moreMoved, moreSettled⟩ :=
    tail value middle result after nextRan
  rw [rest_after cursor middle taken split data moved] at moreSplit
  refine ⟨taken ++ more, left, ?_, moreData.trans data, ?_, ?_⟩
  · rw [split, moreSplit, List.append_assoc]
  · rw [moreMoved, moved, List.length_append, Nat.add_assoc]
  · intro other rest ordered placed remaining
    rw [List.append_assoc] at remaining
    obtain ⟨between, betweenRan, betweenData, betweenOrder, betweenOffset⟩ :=
      settled other (more ++ rest) ordered placed remaining
    have behind := rest_after other between taken remaining betweenData
      (by rw [betweenOffset, moved, placed])
    obtain ⟨final, finalRan, finalData, finalOrder, finalOffset⟩ :=
      moreSettled between rest betweenOrder betweenOffset behind
    refine ⟨final, ?_, finalData.trans betweenData, finalOrder, finalOffset⟩
    rw [run_bind_of_ok betweenRan, finalRan]

theorem check_local {condition : Prop} [Decidable condition] {failure : Failure} {next : α → Read β}
    {passed : Read β} (settled : Local passed) :
    Local (if condition then throw failure >>= next else passed) := by
  by_cases failed : condition
  · rw [if_pos failed]
    intro cursor result after ran
    cases ran
  · rw [if_neg failed]
    exact settled

theorem map_local {value : Read α} (f : α → β) (settled : Local value) : Local (f <$> value) := by
  rw [map_eq_pure_bind]
  exact bind_local settled fun found => pure_local (f found)

theorem of_except_local (outcome : Except Failure α) : Local (ofExcept outcome) := by
  cases outcome with
  | ok value => exact pure_local value
  | error failure => exact throw_local failure

theorem order_local {next : ByteOrder → Read β} (each : ∀ order, Local (next order)) :
    Local (get >>= fun cursor => next cursor.order) := by
  intro cursor result after ran
  obtain ⟨taken, others, split, data, moved, settled⟩ := each cursor.order cursor result after ran
  refine ⟨taken, others, split, data, moved, ?_⟩
  intro other rest ordered placed remaining
  change ∃ left, next other.order other = .ok result left ∧ _
  rw [ordered]
  exact settled other rest ordered placed remaining

theorem with_order_local (order : ByteOrder) :
    Local (modify (·.withOrder order) : Read Unit) := by
  intro cursor result after ran
  cases ran
  refine ⟨[], cursor.rest, rfl, rfl, rfl, ?_⟩
  intro other rest _ placed _
  exact ⟨other.withOrder order, rfl, rfl, rfl, placed⟩

theorem position_local : Local position := by
  apply local_of_yields
  intro cursor result after ran
  obtain ⟨rfl, -⟩ := position_ran ran
  exact ⟨[], cursor.rest, rfl, fun rest => position_yields⟩

theorem bytes_local (n : Nat) : Local (bytes n) := by
  apply local_of_yields
  intro cursor taken after ran
  obtain ⟨shape, length, -⟩ := bytes_ran ran
  refine ⟨taken, cursor.rest.drop n, ?_, fun rest => bytes_yields_of_length length⟩
  rw [shape, ← cursor.rest_eq, List.take_append_drop]

theorem skip_local (n : Nat) : Local (skip n) :=
  bind_local (bytes_local n) fun _ => pure_local ()

theorem align_local (width : Nat) : Local (align width) :=
  bind_local position_local fun start => skip_local (padding start width)

theorem number_local (width : Nat) : Local (number width) :=
  order_local fun order => bind_local (bytes_local width) fun taken => pure_local (order.read taken)

theorem u32_local : Local u32 := map_local UInt32.ofNat (number_local 4)

theorem uint_local (width : Width) : Local (uint width) :=
  map_local UInt64.ofNat (number_local width.size)

theorem u64_local : Local u64 := map_local UInt64.ofNat (number_local 8)

theorem uleb_local : Local uleb := by
  apply local_of_yields
  intro cursor word after ran
  obtain ⟨used, decoded, -⟩ := uleb_ran ran
  rw [← cursor.rest_eq] at decoded
  have length := List.length_take_of_le (Leb128.used_le_length_of_decode decoded)
  refine ⟨cursor.rest.take used, cursor.rest.drop used, (List.take_append_drop _ _).symm, ?_⟩
  intro rest
  have again : Yields uleb cursor.order cursor.offset (cursor.rest.take used) rest
      (UInt64.ofNat word.toNat) :=
    uleb_decoded_yields _ _ (by rw [Leb128.decode_take _ used _ rest decoded, length])
  rwa [UInt64.ofNat_toNat] at again

theorem uleb32_local : Local uleb32 := by
  refine bind_local position_local fun start => bind_local uleb_local fun word => ?_
  split
  · exact pure_local _
  · exact throw_local _

theorem text_local (n : Nat) : Local (text n) := by
  refine bind_local position_local fun start => bind_local (bytes_local n) fun taken => ?_
  split
  · exact pure_local _
  · exact throw_local _

theorem uleb_text_local : Local ulebText := bind_local uleb_local fun length => text_local length.toNat

theorem times_local {action : Read α} (settled : Local action) (count : Nat) :
    Local (times count action) := by
  induction count with
  | zero => exact pure_local []
  | succ count ih =>
      exact bind_local settled fun first => bind_local ih fun rest => pure_local (first :: rest)

end ExecCounts.Read
