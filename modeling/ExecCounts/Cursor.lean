import ExecCounts.Failure
import ExecCounts.Leb128
import ExecCounts.Utf8

set_option autoImplicit false

namespace ExecCounts

/-- A position in a byte string. Positions, also those in failures and those that alignment is
measured from, count from the start of the cursor's own data. -/
structure Cursor where
  data : Bytes
  order : ByteOrder
  offset : Nat
  rest : Bytes
  offset_le : offset ≤ data.length
  rest_eq : rest = data.drop offset

namespace Cursor

def ofBytes (data : Bytes) (order : ByteOrder) : Cursor :=
  ⟨data, order, 0, data, Nat.zero_le _, rfl⟩

def little (data : Bytes) : Cursor := ofBytes data .little

def move (cursor : Cursor) (offset : Nat) (within : offset ≤ cursor.data.length) : Cursor :=
  ⟨cursor.data, cursor.order, offset, cursor.data.drop offset, within, rfl⟩

def advance (cursor : Cursor) (n : Nat) (within : n ≤ cursor.rest.length) : Cursor where
  data := cursor.data
  order := cursor.order
  offset := cursor.offset + n
  rest := cursor.rest.drop n
  offset_le := by
    have bound := cursor.offset_le
    rw [cursor.rest_eq, List.length_drop] at within
    omega
  rest_eq := by rw [cursor.rest_eq, List.drop_drop]

def withOrder (cursor : Cursor) (order : ByteOrder) : Cursor := { cursor with order }

def remaining (cursor : Cursor) : Nat := cursor.rest.length

def isEmpty (cursor : Cursor) : Bool := cursor.rest.isEmpty

theorem remaining_eq (cursor : Cursor) :
    cursor.remaining = cursor.data.length - cursor.offset := by
  rw [remaining, cursor.rest_eq, List.length_drop]

theorem ext_position {a b : Cursor} (data : a.data = b.data) (order : a.order = b.order)
    (offset : a.offset = b.offset) : a = b := by
  have rest : a.rest = b.rest := by rw [a.rest_eq, b.rest_eq, data, offset]
  cases a
  cases b
  simp_all

def sub (cursor : Cursor) (offset length : Nat) : Except Failure Cursor :=
  if offset + length ≤ cursor.data.length then
    .ok (ofBytes ((cursor.data.drop offset).take length) cursor.order)
  else
    .error ((Failure.because .corruptIndex
      s!"range of {Numeral.decimal length} bytes is out of bounds").atOffset offset)

def short (cursor : Cursor) (needed : Nat) : Failure :=
  let detail :=
    s!"{Numeral.decimal needed} bytes required, {Numeral.decimal cursor.remaining} available"
  (Failure.because .truncatedInput detail).atOffset cursor.offset

end Cursor

/-- Takes a value at the cursor. A failure comes with the cursor as the failed read left it. -/
abbrev Read := EStateM Failure Cursor

def Cursor.read {α : Type} (cursor : Cursor) (value : Read α) : Except Failure α :=
  match value cursor with
  | .ok result _ => .ok result
  | .error failure _ => .error failure

namespace Read

variable {α : Type}

def ofExcept : Except Failure α → Read α
  | .ok value => pure value
  | .error failure => throw failure

def amend (context : Failure → Failure) (value : Read α) : Read α :=
  EStateM.adaptExcept context value

def position : Read Nat := do return (← get).offset

def atEnd : Read Bool := do return (← get).isEmpty

def seek (offset : Nat) : Read Unit := fun cursor =>
  if within : offset ≤ cursor.data.length then .ok () (cursor.move offset within)
  else
    .error ((Failure.because .truncatedInput "seek past the end of input").atOffset offset) cursor

def bytes (n : Nat) : Read Bytes := fun cursor =>
  let taken := cursor.rest.take n
  if whole : taken.length = n then
    .ok taken (cursor.advance n (by
      rw [List.length_take] at whole
      omega))
  else .error (cursor.short n) cursor

def skip (n : Nat) : Read Unit := do
  let _ ← bytes n

def padding (offset align : Nat) : Nat := (align - offset % align) % align

def align (align : Nat) : Read Unit := do
  skip (padding (← position) align)

def number (width : Nat) : Read Nat := do
  let order := (← get).order
  return order.read (← bytes width)

def u8 : Read UInt8 := UInt8.ofNat <$> number 1

def u16 : Read UInt16 := UInt16.ofNat <$> number 2

def u32 : Read UInt32 := UInt32.ofNat <$> number 4

def u64 : Read UInt64 := UInt64.ofNat <$> number 8

def uint (width : Width) : Read UInt64 := UInt64.ofNat <$> number width.size

def uleb : Read UInt64 := fun cursor =>
  match decoded : Leb128.decode cursor.rest with
  | .ok (value, used) =>
      .ok (UInt64.ofNat value) (cursor.advance used (Leb128.used_le_length_of_decode decoded))
  | .error .overflow =>
      let failure := Failure.because .invalidEncoding "LEB128 value exceeds 64 bits"
      .error (failure.atOffset cursor.offset) cursor
  | .error .truncated => .error (Failure.atOffset cursor.offset { kind := .truncatedInput }) cursor

def uleb32 : Read UInt32 := do
  let start ← position
  let value ← uleb
  if value.toNat < UInt32.size then return value.toUInt32
  else throw ((Failure.because .invalidEncoding
    s!"value {Numeral.decimal value.toNat} exceeds 32 bits").atOffset start)

def text (n : Nat) : Read String := do
  let start ← position
  match Utf8.text? (← bytes n) with
  | some text => return text
  | none => throw (Failure.atOffset start { kind := .invalidEncoding })

def ulebText : Read String := do
  text (← uleb).toNat

end Read

end ExecCounts
