import ExecCounts.Profile
import ExecCounts.Proofs.Taken

set_option autoImplicit false

namespace ExecCounts

theorem Version.require_ok_iff (tag : UInt64) (version : Version) :
    Version.require tag = .ok version ↔ Version.ofTag? tag.toNat = some version := by
  rw [Version.require]
  cases Version.ofTag? tag.toNat <;> simp

theorem Variant.tag_of_word (word : UInt64) :
    (Variant.ofWord word).1.toNat = word.toNat % Variant.tagLimit := by
  apply UInt64.toNat_ofNat_of_lt'
  exact Nat.lt_trans (Nat.mod_lt _ (by decide)) (by decide)

def storedVersion (order : ByteOrder) (data : Bytes) : Option Version :=
  Version.ofTag? (order.numberAt data 8 8 % Variant.tagLimit)

def storedVariant (order : ByteOrder) (data : Bytes) : Variant :=
  (Variant.ofWord (UInt64.ofNat (order.numberAt data 8 8))).2

def storedField {Field : Type} [BEq Field] (order : ByteOrder) (data : Bytes) (width : Nat)
    (fields : List Field) (field : Field) : Nat :=
  order.numberAt data (16 + width * fields.idxOf field) width

theorem stored_version_eq (order : ByteOrder) (data : Bytes) (word : UInt64) (version : Version)
    (number : word.toNat = order.numberAt data 8 8)
    (required : Version.require (Variant.ofWord word).1 = .ok version) :
    storedVersion order data = some version := by
  rw [Version.require_ok_iff, Variant.tag_of_word, number] at required
  exact required

theorem stored_variant_eq (order : ByteOrder) (data : Bytes) (word : UInt64)
    (number : word.toNat = order.numberAt data 8 8) :
    (Variant.ofWord word).2 = storedVariant order data := by
  rw [storedVariant, ← number, UInt64.ofNat_toNat]

namespace Read

variable {Field : Type}

def fields (word : Read UInt64) : List Field → Read (List (Field × UInt64))
  | [] => pure []
  | field :: rest => do
      let value ← word
      return (field, value) :: (← fields word rest)

theorem fields_ran [BEq Field] [LawfulBEq Field] (word : Read UInt64) (width : Nat)
    (each : ∀ (cursor : Cursor) (value : UInt64) (after : Cursor), word cursor = .ok value after →
      value.toNat = cursor.order.numberAt cursor.data cursor.offset width ∧
        cursor.Moved width after)
    (listed : List Field) (cursor after : Cursor) (header : List (Field × UInt64))
    (ran : fields word listed cursor = .ok header after) (field : Field) (member : field ∈ listed) :
    (header.lookup field).map UInt64.toNat = some (cursor.order.numberAt cursor.data
      (cursor.offset + width * listed.idxOf field) width) := by
  induction listed generalizing cursor after header with
  | nil => cases member
  | cons first rest ih =>
      obtain ⟨value, middle, valueRan, ran⟩ := (bind_ran_iff _ _ _).mp ran
      obtain ⟨others, final, othersRan, same⟩ := (bind_ran_iff _ _ _).mp ran
      obtain ⟨rfl, -⟩ := (pure_ran_iff _ _).mp same
      obtain ⟨number, moved⟩ := each cursor value middle valueRan
      by_cases own : field = first
      · subst own
        rw [List.lookup_cons, beq_self_eq_true, List.idxOf_cons_self]
        exact congrArg some number
      · have later := ih middle final others othersRan ((List.mem_cons.mp member).resolve_left own)
        rw [List.lookup_cons, beq_false_of_ne own, List.idxOf_cons, beq_false_of_ne (Ne.symm own),
          cond_false, Nat.mul_succ, Nat.add_comm _ width, ← Nat.add_assoc, ← moved.offset,
          ← moved.order, ← moved.data]
        exact later

theorem fields_keys (word : Read UInt64) (listed : List Field) (cursor after : Cursor)
    (header : List (Field × UInt64)) (ran : fields word listed cursor = .ok header after) :
    header.map Prod.fst = listed := by
  induction listed generalizing cursor header with
  | nil =>
      obtain ⟨rfl, -⟩ := (pure_ran_iff _ _).mp ran
      rfl
  | cons first rest ih =>
      obtain ⟨value, middle, -, ran⟩ := (bind_ran_iff _ _ _).mp ran
      obtain ⟨others, last, othersRan, ran⟩ := (bind_ran_iff _ _ _).mp ran
      obtain ⟨rfl, rfl⟩ := (pure_ran_iff _ _).mp ran
      rw [List.map_cons, ih middle others othersRan]

theorem fields_moved (word : Read UInt64) (width : Nat)
    (each : ∀ (cursor : Cursor) (value : UInt64) (after : Cursor), word cursor = .ok value after →
      cursor.Moved width after)
    (listed : List Field) (cursor after : Cursor) (header : List (Field × UInt64))
    (ran : fields word listed cursor = .ok header after) :
    cursor.Moved (width * listed.length) after := by
  induction listed generalizing cursor header with
  | nil =>
      obtain ⟨-, rfl⟩ := (pure_ran_iff _ _).mp ran
      exact ⟨rfl, rfl, rfl⟩
  | cons first rest ih =>
      obtain ⟨value, middle, valueRan, ran⟩ := (bind_ran_iff _ _ _).mp ran
      obtain ⟨others, final, othersRan, same⟩ := (bind_ran_iff _ _ _).mp ran
      obtain ⟨-, rfl⟩ := (pure_ran_iff _ _).mp same
      rw [List.length_cons, Nat.mul_succ, Nat.add_comm]
      exact (each cursor value middle valueRan).trans (ih middle others othersRan)

theorem check_ran {α β : Type} {condition : Prop} [Decidable condition] {failure : Failure}
    {next : β → Read α} {passed : Read α} {cursor after : Cursor} {result : α}
    (ran : (if condition then throw failure >>= next else passed) cursor = .ok result after) :
    ¬ condition ∧ passed cursor = .ok result after := by
  by_cases failed : condition
  · rw [if_pos failed] at ran
    cases ran
  · rw [if_neg failed] at ran
    exact ⟨failed, ran⟩

end Read

end ExecCounts
