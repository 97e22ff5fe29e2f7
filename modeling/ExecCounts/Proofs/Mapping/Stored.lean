import ExecCounts.Proofs.Outcome
import ExecCounts.Mapping.Reader
import ExecCounts.Mapping.Writer
import Mathlib.Algebra.GroupWithZero.Nat

set_option autoImplicit false

namespace ExecCounts

namespace Region

def storedCounters (region : Region) : List Expr :=
  match region.kind with
  | .code => [region.counter]
  | .gap => [region.counter]
  | .branch => [region.counter, region.falseCounter.getD .zero]
  | .expansion => []
  | .skipped => []

def storedCounter (region : Region) : Expr :=
  match region.kind with
  | .expansion => .zero
  | .skipped => .zero
  | _ => region.counter

def storedFalseCounter (region : Region) : Option Expr :=
  match region.kind with
  | .branch => some (region.falseCounter.getD .zero)
  | _ => none

def storedExpandedFileId (region : Region) : Option UInt32 :=
  match region.kind with
  | .expansion => region.expandedFileId
  | _ => none

def wholeLines (region : Region) : Bool := region.start.column == 0 && region.stop.column == 0

def stored (region : Region) : Region where
  fileId := region.fileId
  start := ⟨region.start.line, if region.wholeLines then 1 else region.start.column⟩
  stop := ⟨region.stop.line, if region.wholeLines then lastColumn else region.stop.column⟩
  kind := region.kind
  counter := region.storedCounter
  falseCounter := region.storedFalseCounter
  expandedFileId := region.storedExpandedFileId

def head (region : Region) : Section.Head where
  kind := if region.kind = .gap then .code else region.kind
  counter := region.storedCounter
  falseCounter := region.storedFalseCounter
  expandedFileId := region.storedExpandedFileId

theorem counted_stored (region : Region) (kind : region.kind = .code ∨ region.kind = .gap) :
    region.storedCounters = [region.counter] ∧ region.head = ⟨.code, region.counter, none, none⟩ := by
  rcases kind with code | gap
  · refine ⟨by rw [storedCounters, code], ?_⟩
    simp only [head, storedCounter, storedFalseCounter, storedExpandedFileId, code]
    rfl
  · refine ⟨by rw [storedCounters, gap], ?_⟩
    simp only [head, storedCounter, storedFalseCounter, storedExpandedFileId, gap]
    rfl

theorem expansion_stored (region : Region) (kind : region.kind = .expansion) :
    region.storedCounters = [] ∧ region.head = ⟨.expansion, .zero, none, region.expandedFileId⟩ := by
  refine ⟨by rw [storedCounters, kind], ?_⟩
  simp only [head, storedCounter, storedFalseCounter, storedExpandedFileId, kind]
  rfl

theorem skipped_stored (region : Region) (kind : region.kind = .skipped) :
    region.storedCounters = [] ∧ region.head = ⟨.skipped, .zero, none, none⟩ := by
  refine ⟨by rw [storedCounters, kind], ?_⟩
  simp only [head, storedCounter, storedFalseCounter, storedExpandedFileId, kind]
  rfl

theorem branch_stored (region : Region) (kind : region.kind = .branch) :
    region.storedCounters = [region.counter, region.falseCounter.getD .zero] ∧
      region.head = ⟨.branch, region.counter, some (region.falseCounter.getD .zero), none⟩ := by
  refine ⟨by rw [storedCounters, kind], ?_⟩
  simp only [head, storedCounter, storedFalseCounter, storedExpandedFileId, kind]
  rfl

theorem well_formed_stored (region : Region) (formed : region.isWellFormed) :
    region.stored.isWellFormed := by
  simp only [isWellFormed, Position.le, Bool.or_eq_true, Bool.and_eq_true,
    decide_eq_true_eq] at formed ⊢
  rcases formed with earlier | ⟨same, columns⟩
  · exact .inl earlier
  · refine .inr ⟨same, ?_⟩
    simp only [stored]
    by_cases whole : region.wholeLines
    · rw [if_pos whole, if_pos whole]
      decide
    · rwa [if_neg whole, if_neg whole]

end Region

def Expr.nodes (exprs : List Expr) : Nat := (exprs.map Expr.size).sum

theorem Expr.nodes_singleton (expr : Expr) : nodes [expr] = expr.size :=
  List.sum_singleton

theorem Expr.nodes_pair (first second : Expr) :
    nodes [first, second] = second.size + first.size := by
  rw [nodes, List.map_cons, List.sum_cons, Nat.add_comm]
  exact congrArg (· + first.size) List.sum_singleton

theorem Expr.nodes_append (first second : List Expr) :
    nodes (first ++ second) = nodes first + nodes second := by
  rw [nodes, List.map_append, List.sum_append]
  rfl

theorem Expr.nodes_perm {first second : List Expr} (same : first.Perm second) :
    nodes first = nodes second :=
  (same.map _).sum_nat

namespace Section

def wholeColumns (first last : UInt32) : UInt32 × UInt32 :=
  if first = 0 ∧ last = 0 then (1, Region.lastColumn) else (first, last)

theorem load_columns_plain (first last : UInt32) (plain : last.toNat < gapColumn) :
    loadColumns first last = (false, wholeColumns first last) := by
  simp only [loadColumns, wholeColumns, if_neg (Nat.not_le.mpr plain),
    decide_eq_false (Nat.not_le.mpr plain)]
  split <;> rfl

theorem load_columns_gap (first last : UInt32) (plain : last.toNat < gapColumn) :
    loadColumns first (UInt32.ofNat (last.toNat + gapColumn)) = (true, wholeColumns first last) := by
  have value : (UInt32.ofNat (last.toNat + gapColumn)).toNat = last.toNat + gapColumn := by
    apply UInt32.toNat_ofNat_of_lt'
    simp only [gapColumn, UInt32.size] at *
    omega
  have marked : gapColumn ≤ last.toNat + gapColumn := Nat.le_add_left _ _
  simp only [loadColumns, wholeColumns, value, if_pos marked, decide_eq_true marked,
    Nat.add_sub_cancel, UInt32.ofNat_toNat]
  split <;> rfl

theorem stored_columns_ok (mapping : FunctionMapping) (region : Region) (columns : Nat × Nat)
    (ok : storedColumns mapping region = .ok columns) : ∃ first last : UInt32,
      last.toNat < gapColumn ∧
      wholeColumns first last = (region.stored.start.column, region.stored.stop.column) ∧
      columns = (first.toNat,
        if region.kind = .gap then last.toNat + gapColumn else last.toNat) := by
  rw [storedColumns] at ok
  by_cases lines : region.start.column = 1 ∧ region.stop.column = Region.lastColumn
  · rw [if_pos lines] at ok
    cases (pure_ok_iff _ _).mp ok
    have distinct : region.wholeLines = false := by
      rw [Region.wholeLines, lines.1, lines.2]
      rfl
    refine ⟨0, 0, by decide, ?_, rfl⟩
    simp only [Region.stored, distinct, lines.1, lines.2]
    rfl
  · rw [if_neg lines] at ok
    by_cases large : gapColumn ≤ region.stop.column.toNat
    · rw [if_pos large] at ok
      cases ok
    · rw [if_neg large] at ok
      cases (pure_ok_iff _ _).mp ok
      refine ⟨region.start.column, region.stop.column, Nat.not_le.mp large, ?_, rfl⟩
      simp only [wholeColumns, Region.stored, Region.wholeLines, Bool.and_eq_true, beq_iff_eq]
      split <;> rfl

theorem load_stored_columns (mapping : FunctionMapping) (region : Region) (first last : Nat)
    (ok : storedColumns mapping region = .ok (first, last)) :
    first < UInt32.size ∧ last < UInt32.size ∧
      loadColumns (UInt32.ofNat first) (UInt32.ofNat last) =
        (decide (region.kind = .gap), region.stored.start.column, region.stored.stop.column) := by
  obtain ⟨start, stop, plain, columns, same⟩ := stored_columns_ok mapping region _ ok
  cases same
  have bound : gapColumn + gapColumn = UInt32.size := rfl
  by_cases gap : region.kind = .gap
  · rw [if_pos gap]
    refine ⟨start.toNat_lt_size, by omega, ?_⟩
    rw [UInt32.ofNat_toNat, load_columns_gap start stop plain, columns, decide_eq_true gap]
  · rw [if_neg gap]
    refine ⟨start.toNat_lt_size, stop.toNat_lt_size, ?_⟩
    rw [UInt32.ofNat_toNat, UInt32.ofNat_toNat, load_columns_plain start stop plain, columns,
      decide_eq_false gap]

end Section

end ExecCounts
