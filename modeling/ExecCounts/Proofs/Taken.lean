import ExecCounts.Cursor
import ExecCounts.Proofs.Bytes
import ExecCounts.Proofs.Leb128
import ExecCounts.Proofs.Outcome

set_option autoImplicit false

namespace ExecCounts

def ByteOrder.numberAt (order : ByteOrder) (data : Bytes) (offset width : Nat) : Nat :=
  order.read ((data.drop offset).take width)

theorem Bytes.bound_le {n m : Nat} (fewer : n ≤ m) : bound n ≤ bound m := by
  induction fewer with
  | refl => exact Nat.le_refl _
  | step _ ih => exact Nat.le_trans ih (Nat.le_mul_of_pos_left _ (by decide))

theorem ByteOrder.number_at_lt (order : ByteOrder) (data : Bytes) (offset width : Nat) :
    order.numberAt data offset width < Bytes.bound width := by
  have small := Bytes.to_nat_lt (order.arrange ((data.drop offset).take width))
  rw [ByteOrder.length_arrange] at small
  exact Nat.lt_of_lt_of_le small (Bytes.bound_le (List.length_take_le _ _))

theorem ByteOrder.number_at_slice (order : ByteOrder) (data : Bytes) (start length : Nat)
    {offset width : Nat} (inside : offset + width ≤ length) :
    order.numberAt ((data.drop start).take length) offset width =
      order.numberAt data (start + offset) width := by
  rw [numberAt, numberAt, List.drop_take, List.take_take, List.drop_drop,
    Nat.min_eq_left (by omega)]

structure Cursor.Moved (cursor : Cursor) (n : Nat) (after : Cursor) : Prop where
  data : after.data = cursor.data
  order : after.order = cursor.order
  offset : after.offset = cursor.offset + n

theorem Cursor.Moved.trans {first second third : Cursor} {n m : Nat} (earlier : first.Moved n second)
    (later : second.Moved m third) : first.Moved (n + m) third where
  data := later.data.trans earlier.data
  order := later.order.trans earlier.order
  offset := by rw [later.offset, earlier.offset, Nat.add_assoc]

theorem Cursor.Moved.number_at {cursor after : Cursor} {n : Nat} (moved : cursor.Moved n after)
    (width : Nat) : after.order.numberAt after.data after.offset width =
      cursor.order.numberAt cursor.data (cursor.offset + n) width := by
  rw [moved.order, moved.data, moved.offset]

namespace Read

variable {α β : Type} {cursor after : Cursor}

theorem bind_ran_iff (first : Read α) (next : α → Read β) (result : β) :
    (first >>= next) cursor = .ok result after ↔
      ∃ value middle, first cursor = .ok value middle ∧ next value middle = .ok result after :=
  run_bind_ok_iff first next cursor result after

theorem pure_ran_iff (value result : α) :
    (pure value : Read α) cursor = .ok result after ↔ value = result ∧ cursor = after :=
  run_pure_ok_iff value cursor result after

theorem of_except_ran_iff (computed : Except Failure α) (result : α) :
    ofExcept computed cursor = .ok result after ↔ computed = .ok result ∧ cursor = after := by
  cases computed with
  | ok value => simp [ofExcept, pure_ran_iff]
  | error failure => exact ⟨nofun, fun both => by cases both.1⟩

def Ensures (value : Read α) (holds : α → Prop) : Prop :=
  ∀ (cursor : Cursor) (result : α) (after : Cursor), value cursor = .ok result after → holds result

theorem pure_ensures {holds : α → Prop} {value : α} (own : holds value) :
    Ensures (pure value) holds := by
  intro cursor result after ran
  cases ran
  exact own

theorem throw_bind_ensures {holds : β → Prop} (failure : Failure) (next : α → Read β) :
    Ensures (throw failure >>= next) holds := by
  intro cursor result after ran
  cases ran

theorem bind_ensures {holds : β → Prop} {first : Read α} {next : α → Read β}
    (each : ∀ value, Ensures (next value) holds) : Ensures (first >>= next) holds := by
  intro cursor result after ran
  obtain ⟨value, middle, -, nextRan⟩ := (bind_ran_iff _ _ _).mp ran
  exact each value middle result after nextRan

theorem read_ok_iff (value : Read α) (result : α) :
    cursor.read value = .ok result ↔ ∃ after, value cursor = .ok result after := by
  rw [Cursor.read]
  cases value cursor <;> simp

theorem bytes_ran {n : Nat} {taken : Bytes} (ran : bytes n cursor = .ok taken after) :
    taken = (cursor.data.drop cursor.offset).take n ∧ taken.length = n ∧ cursor.Moved n after := by
  rw [bytes] at ran
  split at ran
  · rename_i whole
    cases ran
    rw [cursor.rest_eq] at whole ⊢
    exact ⟨rfl, whole, rfl, rfl, rfl⟩
  · cases ran

theorem skip_ran {n : Nat} (ran : skip n cursor = .ok () after) : cursor.Moved n after := by
  obtain ⟨taken, middle, bytesRan, rest⟩ := (bind_ran_iff _ _ _).mp ran
  cases ((pure_ran_iff _ _).mp rest).2
  exact (bytes_ran bytesRan).2.2

theorem position_ran {offset : Nat} (ran : position cursor = .ok offset after) :
    offset = cursor.offset ∧ after = cursor := by
  cases ran
  exact ⟨rfl, rfl⟩

theorem align_ran {width : Nat} (ran : align width cursor = .ok () after) :
    cursor.Moved (padding cursor.offset width) after := by
  obtain ⟨offset, middle, positionRan, rest⟩ := (bind_ran_iff _ _ _).mp ran
  obtain ⟨rfl, rfl⟩ := position_ran positionRan
  exact skip_ran rest

theorem align_eight_ran (ran : align 8 cursor = .ok () after) :
    after.data = cursor.data ∧ after.order = cursor.order ∧
      after.offset = alignUp cursor.offset 8 := by
  have moved := align_ran ran
  refine ⟨moved.data, moved.order, ?_⟩
  rw [moved.offset, align_up_eight]
  rfl

theorem number_ran {width n : Nat} (ran : number width cursor = .ok n after) :
    n = cursor.order.numberAt cursor.data cursor.offset width ∧ n < Bytes.bound width ∧
      cursor.Moved width after := by
  obtain ⟨current, middle, getRan, rest⟩ := (bind_ran_iff _ _ _).mp ran
  cases getRan
  obtain ⟨taken, final, bytesRan, same⟩ := (bind_ran_iff _ _ _).mp rest
  obtain ⟨rfl, rfl⟩ := (pure_ran_iff _ _).mp same
  obtain ⟨shape, length, moved⟩ := bytes_ran bytesRan
  refine ⟨by rw [shape]; rfl, ?_, moved⟩
  have bound := Bytes.to_nat_lt (cursor.order.arrange taken)
  rwa [ByteOrder.length_arrange, length] at bound

theorem map_ran {value : Read α} {f : α → β} {result : β}
    (ran : (f <$> value) cursor = .ok result after) :
    ∃ found, value cursor = .ok found after ∧ f found = result := by
  change EStateM.map f value cursor = _ at ran
  rw [EStateM.map] at ran
  cases valueRan : value cursor with
  | ok found middle =>
      rw [valueRan] at ran
      cases ran
      exact ⟨found, rfl, rfl⟩
  | error failure middle =>
      rw [valueRan] at ran
      cases ran

theorem times_succ_ran_iff (n : Nat) (action : Read α) (values : List α) :
    times (n + 1) action cursor = .ok values after ↔ ∃ first middle rest,
      action cursor = .ok first middle ∧ times n action middle = .ok rest after ∧
        values = first :: rest := by
  rw [times, bind_ran_iff]
  refine exists_congr fun first => exists_congr fun middle => ?_
  rw [bind_ran_iff]
  constructor
  · rintro ⟨firstRan, rest, last, restRan, same⟩
    obtain ⟨rfl, rfl⟩ := (pure_ran_iff _ _).mp same
    exact ⟨rest, firstRan, restRan, rfl⟩
  · rintro ⟨rest, firstRan, restRan, rfl⟩
    exact ⟨firstRan, rest, after, restRan, rfl⟩

theorem times_ensures {n : Nat} {action : Read α} {holds : α → Prop} (each : Ensures action holds) :
    Ensures (times n action) fun values => ∀ value ∈ values, holds value := by
  induction n with
  | zero => exact pure_ensures nofun
  | succ n ih =>
      intro cursor values after ran
      obtain ⟨first, middle, rest, firstRan, restRan, rfl⟩ := (times_succ_ran_iff _ _ _).mp ran
      exact List.forall_mem_cons.mpr ⟨each cursor first middle firstRan, ih middle rest after restRan⟩

theorem times_ran {n size : Nat} {action : Read α} {values : List α}
    (each : ∀ (first : Cursor) (value : α) (second : Cursor), action first = .ok value second →
      first.Moved size second)
    (ran : times n action cursor = .ok values after) : cursor.Moved (n * size) after := by
  induction n generalizing cursor values with
  | zero =>
      obtain ⟨-, rfl⟩ := (pure_ran_iff _ _).mp ran
      rw [Nat.zero_mul]
      exact ⟨rfl, rfl, rfl⟩
  | succ n ih =>
      obtain ⟨value, middle, rest, firstRan, restRan, -⟩ := (times_succ_ran_iff _ _ _).mp ran
      rw [Nat.succ_mul, Nat.add_comm]
      exact (each cursor value middle firstRan).trans (ih restRan)

theorem times_onward {n : Nat} {action : Read α} {values : List α}
    (each : ∀ (first : Cursor) (value : α) (second : Cursor), action first = .ok value second →
      second.data = first.data ∧ first.offset < second.offset)
    (ran : times n action cursor = .ok values after) :
    after.data = cursor.data ∧ cursor.offset + values.length ≤ after.offset := by
  induction n generalizing cursor values with
  | zero =>
      obtain ⟨rfl, rfl⟩ := (pure_ran_iff _ _).mp ran
      exact ⟨rfl, Nat.le_refl _⟩
  | succ n ih =>
      obtain ⟨value, middle, rest, firstRan, restRan, rfl⟩ := (times_succ_ran_iff _ _ _).mp ran
      obtain ⟨data, onward⟩ := each cursor value middle firstRan
      obtain ⟨restData, further⟩ := ih restRan
      refine ⟨restData.trans data, ?_⟩
      rw [List.length_cons]
      omega

theorem seek_ran {offset : Nat} (ran : seek offset cursor = .ok () after) :
    after.data = cursor.data ∧ after.order = cursor.order ∧ after.offset = offset := by
  rw [seek] at ran
  split at ran
  · cases ran
    exact ⟨rfl, rfl, rfl⟩
  · cases ran

theorem u16_ran {word : UInt16} (ran : u16 cursor = .ok word after) :
    word.toNat = cursor.order.numberAt cursor.data cursor.offset 2 ∧ cursor.Moved 2 after := by
  obtain ⟨n, numberRan, rfl⟩ := map_ran ran
  obtain ⟨shape, small, moved⟩ := number_ran numberRan
  exact ⟨(UInt16.toNat_ofNat_of_lt' small).trans shape, moved⟩

theorem u32_ran {word : UInt32} (ran : u32 cursor = .ok word after) :
    word.toNat = cursor.order.numberAt cursor.data cursor.offset 4 ∧ cursor.Moved 4 after := by
  obtain ⟨n, numberRan, rfl⟩ := map_ran ran
  obtain ⟨shape, small, moved⟩ := number_ran numberRan
  exact ⟨(UInt32.toNat_ofNat_of_lt' small).trans shape, moved⟩

theorem u64_ran {word : UInt64} (ran : u64 cursor = .ok word after) :
    word.toNat = cursor.order.numberAt cursor.data cursor.offset 8 ∧ cursor.Moved 8 after := by
  obtain ⟨n, numberRan, rfl⟩ := map_ran ran
  obtain ⟨shape, small, moved⟩ := number_ran numberRan
  exact ⟨(UInt64.toNat_ofNat_of_lt' small).trans shape, moved⟩

theorem uint_ran {width : Width} {word : UInt64} (ran : uint width cursor = .ok word after) :
    word.toNat = cursor.order.numberAt cursor.data cursor.offset width.size ∧
      cursor.Moved width.size after := by
  obtain ⟨n, numberRan, rfl⟩ := map_ran ran
  obtain ⟨shape, small, moved⟩ := number_ran numberRan
  have fits : n < UInt64.size := by
    refine Nat.lt_of_lt_of_le small ?_
    cases width <;> decide
  exact ⟨(UInt64.toNat_ofNat_of_lt' fits).trans shape, moved⟩

theorem uleb_ran {word : UInt64} (ran : uleb cursor = .ok word after) : ∃ used,
    Leb128.decode (cursor.data.drop cursor.offset) = .ok (word.toNat, used) ∧
      cursor.Moved used after := by
  rw [uleb] at ran
  split at ran
  · rename_i value used decoded
    cases ran
    rw [cursor.rest_eq] at decoded
    refine ⟨used, ?_, rfl, rfl, rfl⟩
    rw [decoded, UInt64.toNat_ofNat_of_lt' (Leb128.decode_lt value used _ decoded)]
  · cases ran
  · cases ran

theorem text_ran {n : Nat} {found : String} (ran : text n cursor = .ok found after) :
    Utf8.text? ((cursor.data.drop cursor.offset).take n) = some found ∧ cursor.Moved n after := by
  obtain ⟨start, first, startRan, rest⟩ := (bind_ran_iff _ _ _).mp ran
  rw [(position_ran startRan).2] at rest
  obtain ⟨taken, middle, bytesRan, last⟩ := (bind_ran_iff _ _ _).mp rest
  obtain ⟨shape, -, moved⟩ := bytes_ran bytesRan
  cases read : Utf8.text? taken with
  | none =>
      rw [read] at last
      cases last
  | some decoded =>
      rw [read] at last
      obtain ⟨rfl, rfl⟩ := (pure_ran_iff _ _).mp last
      exact ⟨shape ▸ read, moved⟩

theorem uleb_text_ran {found : String} (ran : ulebText cursor = .ok found after) :
    ∃ length used, Leb128.decode (cursor.data.drop cursor.offset) = .ok (length, used) ∧
      Utf8.text? ((cursor.data.drop (cursor.offset + used)).take length) = some found ∧
      cursor.Moved (used + length) after := by
  obtain ⟨word, middle, wordRan, ran⟩ := (bind_ran_iff _ _ _).mp ran
  obtain ⟨used, decoded, moved⟩ := uleb_ran wordRan
  obtain ⟨read, textMoved⟩ := text_ran ran
  rw [moved.data, moved.offset] at read
  exact ⟨word.toNat, used, decoded, read, moved.trans textMoved⟩

end Read

end ExecCounts
