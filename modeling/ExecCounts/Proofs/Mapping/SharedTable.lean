import ExecCounts.Proofs.Mapping.ExprTable
import ExecCounts.Proofs.Mapping.Stored
import Mathlib.Algebra.GroupWithZero.Nat

set_option autoImplicit false

namespace ExecCounts.ExprTable

def encodeAll (table : ExprTable) : List Expr → List UInt64 × ExprTable
  | [] => ([], table)
  | expr :: rest =>
      let (number, table) := table.encode expr
      let (numbers, table) := encodeAll table rest
      (number :: numbers, table)

def RefersBelow (limit : Nat) (number : UInt64) : Prop :=
  number.toNat % 4 = subtractTag ∨ number.toNat % 4 = addTag → number.toNat / 4 < limit

structure Compact (table : ExprTable) : Prop where
  distinct : table.toList.Nodup
  ordered : ∀ (index : Nat) (a b : UInt64), table[index]? = some (a, b) →
    RefersBelow index a ∧ RefersBelow index b

section Insert

theorem RefersBelow.mono {limit further : Nat} {number : UInt64} (below : RefersBelow limit number)
    (wider : limit ≤ further) : RefersBelow further number :=
  fun kind => Nat.lt_of_lt_of_le (below kind) wider

theorem plain_below (limit : Nat) {number : UInt64}
    (plain : number.toNat % 4 = 0 ∨ number.toNat % 4 = counterTag) : RefersBelow limit number := by
  intro kind
  simp only [counterTag, subtractTag, addTag] at *
  omega

theorem reference_below {limit index tag : Nat} (low : tag < 4) (inside : index < limit) :
    RefersBelow limit (reference index tag) := by
  intro _
  -- Where an index has more than 62 bits, the upper ones are lost, which only makes it smaller.
  rw [reference, UInt64.toNat_ofNat']
  omega

theorem Extends.size_le {table later : ExprTable} (extended : Extends table later) :
    table.size ≤ later.size := by
  by_contra shorter
  rw [Nat.not_le] at shorter
  have kept := extended later.size _ (Array.getElem?_eq_getElem shorter)
  exact Nat.lt_irrefl _ (Array.getElem?_eq_some_iff.mp kept).1

variable {table : ExprTable} {a b : UInt64}

theorem insert_index_lt (pair : UInt64 × UInt64) :
    (table.insert pair).1 < (table.insert pair).2.size :=
  (Array.getElem?_eq_some_iff.mp (insert_found table pair)).1

theorem insert_compact (compact : Compact table) (first : RefersBelow table.size a)
    (second : RefersBelow table.size b) : Compact (table.insert (a, b)).2 := by
  rw [insert]
  cases found : table.toList.findIdx? (· == (a, b)) with
  | some index => exact compact
  | none =>
      have fresh : (a, b) ∉ table.toList := by
        intro listed
        have other := List.findIdx?_eq_none_iff.mp found (a, b) listed
        rw [beq_self_eq_true] at other
        cases other
      refine ⟨?_, ?_⟩
      · rw [Array.toList_push]
        refine List.nodup_append.mpr ⟨compact.distinct, List.pairwise_singleton _ _, ?_⟩
        rintro pair listed other member rfl
        rw [List.mem_singleton.mp member] at listed
        exact fresh listed
      · intro index c d entry
        dsimp only at entry
        rw [Array.getElem?_push] at entry
        split at entry
        · rename_i last
          cases entry
          rw [last]
          exact ⟨first, second⟩
        · exact compact.ordered index c d entry

theorem encode_compact (expr : Expr) (table : ExprTable) (compact : Compact table) :
    Compact (table.encode expr).2 ∧ RefersBelow (table.encode expr).2.size (table.encode expr).1 := by
  induction expr generalizing table with
  | zero => exact ⟨compact, plain_below _ (.inl rfl)⟩
  | counter index =>
      have bound : index.toNat < 2 ^ 62 := Nat.lt_trans index.toNat_lt (by decide)
      exact ⟨compact, plain_below _ (.inr (reference_parts (by decide) bound).1)⟩
  | add left right leftIh rightIh | subtract left right leftIh rightIh =>
      obtain ⟨leftCompact, leftBelow⟩ := leftIh table compact
      obtain ⟨rightCompact, rightBelow⟩ := rightIh _ leftCompact
      have wider := leftBelow.mono (encode_extends _ right).size_le
      exact ⟨insert_compact rightCompact wider rightBelow, reference_below (by decide) (insert_index_lt _)⟩

end Insert

theorem empty_compact : Compact #[] := by
  refine ⟨List.nodup_nil, fun index a b entry => ?_⟩
  rw [Array.getElem?_empty] at entry
  cases entry

theorem encode_all_compact (exprs : List Expr) (table : ExprTable) (compact : Compact table) :
    Compact (table.encodeAll exprs).2 := by
  induction exprs generalizing table with
  | nil => exact compact
  | cons expr rest ih => exact ih _ (encode_compact expr table compact).1

theorem encode_all_extends (exprs : List Expr) (table : ExprTable) :
    Extends table (table.encodeAll exprs).2 := by
  induction exprs generalizing table with
  | nil => exact extends_refl table
  | cons expr rest ih => exact (encode_extends table expr).trans (ih _)

theorem encode_all_unfolds (final : ExprTable) (small : final.size ≤ 2 ^ 62) (exprs : List Expr)
    (table : ExprTable) (later : Extends (table.encodeAll exprs).2 final) :
    List.Forall₂ (Unfolds final) (table.encodeAll exprs).1 exprs := by
  induction exprs generalizing table with
  | nil => exact .nil
  | cons expr rest ih =>
      have first := (encode_all_extends rest (table.encode expr).2).trans later
      exact .cons (encode_unfolds final small expr table first) (ih _ later)

theorem calls_resolved (final : ExprTable) (numbers : List UInt64) (exprs : List Expr) (left : Nat)
    (unfolds : List.Forall₂ (Unfolds final) numbers exprs)
    (shallow : ∀ expr ∈ exprs, expr.depth ≤ 64) :
    final.calls (Expr.nodes exprs + left) numbers = (exprs.map .ok, left) := by
  induction unfolds with
  | nil =>
      rw [Expr.nodes, List.map_nil, List.sum_nil, Nat.zero_add]
      rfl
  | @cons number expr numbers exprs own _ ih =>
      obtain ⟨ownShallow, others⟩ := List.forall_mem_cons.mp shallow
      have spent : Expr.nodes (expr :: exprs) + left = expr.size + (Expr.nodes exprs + left) := by
        rw [Expr.nodes, List.map_cons, List.sum_cons, Nat.add_assoc]
        rfl
      have resolved := (resolve_ok_iff _ _ _ _).mpr ⟨own, ownShallow, spent.symm⟩
      rw [calls, call, resolved]
      dsimp only
      rw [ih others]
      rfl

/-- Indices into a table have 62 bits, of which no table that fits into memory needs all. -/
theorem encoded_exprs_resolved (exprs : List Expr) (budget : Nat)
    (shallow : ∀ expr ∈ exprs, expr.depth ≤ 64) (affordable : Expr.nodes exprs ≤ budget)
    (small : (encodeAll #[] exprs).2.size ≤ 2 ^ 62) :
    calls (encodeAll #[] exprs).2 budget (encodeAll #[] exprs).1 =
        (exprs.map .ok, budget - Expr.nodes exprs) ∧
      Compact (encodeAll #[] exprs).2 := by
  have unfolds := encode_all_unfolds _ small exprs #[] (extends_refl _)
  have resolved := calls_resolved _ _ exprs (budget - Expr.nodes exprs) unfolds shallow
  rw [Nat.add_sub_cancel' affordable] at resolved
  exact ⟨resolved, encode_all_compact exprs #[] empty_compact⟩

def sharedOperands : List Expr :=
  let sum := Expr.add (.counter 0) (.counter 1)
  let difference := Expr.subtract (.counter 0) (.counter 1)
  [sum, .subtract sum difference, difference]

theorem encoded_exprs_resolved_shared : (∀ expr ∈ sharedOperands, expr.depth ≤ 64) ∧
    Expr.nodes sharedOperands ≤ 13 ∧ (encodeAll #[] sharedOperands).2 = #[(1, 5), (3, 2)] ∧
      calls #[(1, 5), (3, 2)] 13 [3, 6, 2] = (sharedOperands.map .ok, 0) ∧
        Compact #[(1, 5), (3, 2)] := by
  have shallow : ∀ expr ∈ sharedOperands, expr.depth ≤ 64 := by decide
  have affordable : Expr.nodes sharedOperands ≤ 13 := by decide
  have table : (encodeAll #[] sharedOperands).2 = #[(1, 5), (3, 2)] := by decide
  have numbers : (encodeAll #[] sharedOperands).1 = [3, 6, 2] := by decide
  have resolved := encoded_exprs_resolved sharedOperands 13 shallow affordable (by rw [table]; decide)
  rw [table, numbers] at resolved
  exact ⟨shallow, affordable, table, resolved.1, resolved.2⟩

end ExecCounts.ExprTable
