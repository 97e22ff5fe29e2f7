set_option autoImplicit false

namespace ExecCounts

abbrev Bytes := List UInt8

inductive ByteOrder where
  | little
  | big
deriving DecidableEq, Repr

namespace Bytes

/-- The last `width` base 256 digits of a number, least significant first. The byte order of a file
only decides whether this list is written forwards or backwards. -/
def ofNat : Nat → Nat → Bytes
  | 0, _ => []
  | width + 1, n => UInt8.ofNat n :: ofNat width (n / 256)

def toNat : Bytes → Nat
  | [] => 0
  | b :: rest => b.toNat + 256 * toNat rest

def bound : Nat → Nat
  | 0 => 1
  | width + 1 => 256 * bound width

def zeros (n : Nat) : Bytes := List.replicate n 0

theorem length_of_nat (width n : Nat) : (ofNat width n).length = width := by
  induction width generalizing n with
  | zero => rfl
  | succ width ih => simp [ofNat, ih]

theorem to_nat_lt (bytes : Bytes) : toNat bytes < bound bytes.length := by
  induction bytes with
  | nil => simp [toNat, bound]
  | cons b rest ih =>
      have byte := b.toNat_lt
      simp only [toNat, List.length_cons, bound]
      omega

theorem to_nat_of_nat (width n : Nat) : toNat (ofNat width n) = n % bound width := by
  induction width generalizing n with
  | zero => simp [ofNat, toNat, bound, Nat.mod_one]
  | succ width ih =>
      have digit : (UInt8.ofNat n).toNat = n % 256 := by simp
      rw [ofNat, toNat, ih, digit, bound, Nat.mod_mul]

end Bytes

namespace ByteOrder

def arrange : ByteOrder → Bytes → Bytes
  | .little, digits => digits
  | .big, digits => digits.reverse

def write (order : ByteOrder) (width n : Nat) : Bytes := order.arrange (Bytes.ofNat width n)

def read (order : ByteOrder) (bytes : Bytes) : Nat := Bytes.toNat (order.arrange bytes)

theorem arrange_arrange (order : ByteOrder) (digits : Bytes) :
    order.arrange (order.arrange digits) = digits := by
  cases order <;> simp [arrange]

theorem length_arrange (order : ByteOrder) (digits : Bytes) :
    (order.arrange digits).length = digits.length := by
  cases order <;> simp [arrange]

theorem read_write (order : ByteOrder) (width n : Nat) :
    order.read (order.write width n) = n % Bytes.bound width := by
  rw [read, write, arrange_arrange, Bytes.to_nat_of_nat]

end ByteOrder

def le16 (n : Nat) : Bytes := ByteOrder.little.write 2 n

def le32 (n : Nat) : Bytes := ByteOrder.little.write 4 n

def le64 (n : Nat) : Bytes := ByteOrder.little.write 8 n

def alignUp (value align : Nat) : Nat := (value + align - 1) / align * align

def Bytes.padTo (align : Nat) (bytes : Bytes) : Bytes :=
  bytes ++ zeros (alignUp bytes.length align - bytes.length)

def times {m : Type → Type} [Monad m] {α : Type} : Nat → m α → m (List α)
  | 0, _ => pure []
  | n + 1, action => do
      let first ← action
      return first :: (← times n action)

end ExecCounts
