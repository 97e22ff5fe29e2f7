import ExecCounts.Mapping.Expr

set_option autoImplicit false

namespace ExecCounts

/-- The operand pairs of a function's expressions. A number refers to nothing, to a counter, or to
the difference or the sum of a pair, as its two low bits tell. Operands are such numbers again, so
that entries can be shared, and a malformed table can be cyclic or describe trees of any size. -/
abbrev ExprTable := Array (UInt64 × UInt64)

namespace ExprTable

def maxNodes : Nat := UInt16.size

def nodesPerByte : Nat := 16

def budget (dataSize : Nat) : Nat := min (nodesPerByte * dataSize) maxNodes

def counterTag : Nat := 1

def subtractTag : Nat := 2

def addTag : Nat := 3

def operands (table : ExprTable) (index : Nat) : Except Failure (UInt64 × UInt64) :=
  match table[index]? with
  | some pair => .ok pair
  | none =>
      .error (corruptMapping ("expression " ++ Numeral.decimal index ++
        " is out of range, the record has " ++ Numeral.decimal table.size ++ " expressions"))

/-- The expression that a number refers to, if it has at most `levels` levels and no more nodes than
the budget allows; also returns what is left of the budget. -/
def resolveWithin (table : ExprTable) : Nat → UInt64 → Nat → Except Failure (Expr × Nat)
  | 0, _, _ => .error Expr.tooDeep
  | _ + 1, _, 0 => .error (corruptMapping "counter expression is too large")
  | levels + 1, encoded, budget + 1 =>
      let index := encoded.toNat / 4
      let tag := encoded.toNat % 4
      if tag = 0 then .ok (.zero, budget)
      else if tag = counterTag then
        if index < UInt32.size then .ok (.counter (UInt32.ofNat index), budget)
        else .error (corruptMapping s!"counter index {Numeral.decimal index} is out of range")
      else do
        let (a, b) ← table.operands index
        let (left, budget) ← resolveWithin table levels a budget
        let (right, budget) ← resolveWithin table levels b budget
        return (if tag = addTag then .add left right else .subtract left right, budget)

def resolve (table : ExprTable) (encoded : UInt64) (budget : Nat) : Except Failure (Expr × Nat) :=
  table.resolveWithin (Expr.maxDepth + 1) encoded budget

/-- One call of several that share a budget. A call that fails leaves the budget as it was. -/
def call (table : ExprTable) (budget : Nat) (number : UInt64) : Except Failure Expr × Nat :=
  match table.resolve number budget with
  | .ok (expr, left) => (.ok expr, left)
  | .error failure => (.error failure, budget)

def calls (table : ExprTable) : Nat → List UInt64 → List (Except Failure Expr) × Nat
  | budget, [] => ([], budget)
  | budget, number :: rest =>
      let (outcome, left) := table.call budget number
      let (outcomes, left) := table.calls left rest
      (outcome :: outcomes, left)

def insert (table : ExprTable) (pair : UInt64 × UInt64) : Nat × ExprTable :=
  match table.toList.findIdx? (· == pair) with
  | some index => (index, table)
  | none => (table.size, table.push pair)

def reference (index tag : Nat) : UInt64 := UInt64.ofNat (4 * index + tag)

def encode (table : ExprTable) : Expr → UInt64 × ExprTable
  | .zero => (0, table)
  | .counter index => (reference index.toNat counterTag, table)
  | .add left right =>
      let (a, table) := encode table left
      let (b, table) := encode table right
      let (index, table) := insert table (a, b)
      (reference index addTag, table)
  | .subtract left right =>
      let (a, table) := encode table left
      let (b, table) := encode table right
      let (index, table) := insert table (a, b)
      (reference index subtractTag, table)

end ExprTable

end ExecCounts
