import ExecCounts.Proofs.Mapping.Unfolding
import Mathlib.Algebra.GroupWithZero.Nat

set_option autoImplicit false

namespace ExecCounts.ExprTable

/-- Encoding only ever appends to a table, so that what was encoded early can be resolved later. -/
def Extends (table later : ExprTable) : Prop :=
  ∀ (index : Nat) (pair : UInt64 × UInt64), table[index]? = some pair → later[index]? = some pair

theorem extends_refl (table : ExprTable) : Extends table table :=
  fun _ _ found => found

theorem Extends.trans {first second third : ExprTable} (earlier : Extends first second)
    (later : Extends second third) : Extends first third :=
  fun index pair found => later index pair (earlier index pair found)

theorem extends_insert (table : ExprTable) (pair : UInt64 × UInt64) :
    Extends table (insert table pair).2 := by
  intro index other found
  rw [insert]
  cases table.toList.findIdx? (· == pair) with
  | some position => exact found
  | none =>
      have bound : index < table.size := (Array.getElem?_eq_some_iff.mp found).1
      dsimp only
      rw [Array.getElem?_push, if_neg (Nat.ne_of_lt bound), found]

theorem insert_found (table : ExprTable) (pair : UInt64 × UInt64) :
    (insert table pair).2[(insert table pair).1]? = some pair := by
  rw [insert]
  cases found : table.toList.findIdx? (· == pair) with
  | some index =>
      obtain ⟨bound, same, -⟩ := List.findIdx?_eq_some_iff_getElem.mp found
      dsimp only
      rw [← Array.getElem?_toList, List.getElem?_eq_getElem bound, eq_of_beq same]
  | none =>
      dsimp only
      rw [Array.getElem?_push, if_pos rfl]

theorem encode_extends (table : ExprTable) (expr : Expr) : Extends table (table.encode expr).2 := by
  induction expr generalizing table with
  | zero => exact extends_refl table
  | counter index => exact extends_refl table
  | add left right leftIh rightIh =>
      exact ((leftIh table).trans (rightIh _)).trans (extends_insert _ _)
  | subtract left right leftIh rightIh =>
      exact ((leftIh table).trans (rightIh _)).trans (extends_insert _ _)

/-- The number of an expression is never that of another kind of region. -/
theorem encode_tagged (table : ExprTable) (expr : Expr) :
    (table.encode expr).1.toNat = 0 ∨ (table.encode expr).1.toNat % 4 ≠ 0 := by
  have tagged : ∀ index tag : Nat, tag < 4 → (reference index tag).toNat % 4 = tag := by
    intro index tag low
    rw [reference, UInt64.toNat_ofNat']
    omega
  cases expr with
  | zero => exact .inl rfl
  | counter index =>
      right
      rw [encode, tagged _ _ (by decide)]
      decide
  | add left right =>
      right
      rw [encode, tagged _ _ (by decide)]
      decide
  | subtract left right =>
      right
      rw [encode, tagged _ _ (by decide)]
      decide

theorem reference_parts {index tag : Nat} (low : tag < 4) (small : index < 2 ^ 62) :
    (reference index tag).toNat % 4 = tag ∧ (reference index tag).toNat / 4 = index := by
  have number : (reference index tag).toNat = 4 * index + tag := by
    apply UInt64.toNat_ofNat_of_lt'
    simp only [UInt64.size]
    omega
  omega

section Final

variable (final : ExprTable) (small : final.size ≤ 2 ^ 62)

include small

theorem reference_inserted {table : ExprTable} {pair : UInt64 × UInt64} {tag : Nat} (low : tag < 4)
    (later : Extends (table.insert pair).2 final) :
    (reference (table.insert pair).1 tag).toNat % 4 = tag ∧
      final[(reference (table.insert pair).1 tag).toNat / 4]? = some pair := by
  have entry := later _ _ (insert_found table pair)
  have inside : (table.insert pair).1 < final.size := (Array.getElem?_eq_some_iff.mp entry).1
  obtain ⟨kind, position⟩ := reference_parts low (Nat.lt_of_lt_of_le inside small)
  rw [position]
  exact ⟨kind, entry⟩

theorem encode_unfolds (expr : Expr) (table : ExprTable)
    (later : Extends (table.encode expr).2 final) :
    Unfolds final (table.encode expr).1 expr := by
  induction expr generalizing table with
  | zero => exact .zero rfl
  | counter index =>
      have bound : index.toNat < 2 ^ 62 := Nat.lt_trans index.toNat_lt (by decide)
      obtain ⟨tag, position⟩ := reference_parts (by decide : counterTag < 4) bound
      exact .counter tag position
  | add left right leftIh rightIh =>
      obtain ⟨tag, entry⟩ := reference_inserted final small (by decide : addTag < 4) later
      have kept := (extends_insert _ _).trans later
      exact .add tag entry (leftIh table ((encode_extends _ right).trans kept)) (rightIh _ kept)
  | subtract left right leftIh rightIh =>
      obtain ⟨tag, entry⟩ := reference_inserted final small (by decide : subtractTag < 4) later
      have kept := (extends_insert _ _).trans later
      exact .subtract tag entry (leftIh table ((encode_extends _ right).trans kept)) (rightIh _ kept)

end Final

end ExecCounts.ExprTable
