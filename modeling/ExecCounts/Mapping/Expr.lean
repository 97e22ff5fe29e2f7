import ExecCounts.Count
import ExecCounts.Failure

set_option autoImplicit false

namespace ExecCounts

inductive Expr where
  | zero
  | counter (index : UInt32)
  | add (left right : Expr)
  | subtract (left right : Expr)
deriving DecidableEq, Repr, Inhabited

def corruptMapping (detail : String) : Failure := .because .corruptMapping detail

namespace Expr

def maxDepth : Nat := 64

def tooDeep : Failure := corruptMapping "counter expression is nested too deeply"

def depth : Expr → Nat
  | .zero => 0
  | .counter _ => 0
  | .add left right => max left.depth right.depth + 1
  | .subtract left right => max left.depth right.depth + 1

def size : Expr → Nat
  | .zero => 1
  | .counter _ => 1
  | .add left right => left.size + right.size + 1
  | .subtract left right => left.size + right.size + 1

def evaluateWithin (counters : List Count) : Nat → Expr → Except Failure Count
  | 0, _ => .error tooDeep
  | _ + 1, .zero => .ok 0
  | _ + 1, .counter index =>
      match counters[index.toNat]? with
      | some count => .ok count
      | none =>
          .error (corruptMapping ("counter " ++ Numeral.decimal index.toNat ++
            " is out of range, the record has " ++ Numeral.decimal counters.length ++ " counters"))
  | levels + 1, .add left right => do
      let a ← evaluateWithin counters levels left
      let b ← evaluateWithin counters levels right
      return Count.add a b
  | levels + 1, .subtract left right => do
      let a ← evaluateWithin counters levels left
      let b ← evaluateWithin counters levels right
      return Count.sub a b

def evaluate (counters : List Count) (expr : Expr) : Except Failure Count :=
  evaluateWithin counters (maxDepth + 1) expr

def maxIndex : Option UInt32 → Option UInt32 → Option UInt32
  | none, other => other
  | some a, none => some a
  | some a, some b => some (if a ≤ b then b else a)

def maxCounter : Expr → Option UInt32
  | .zero => none
  | .counter index => some index
  | .add left right => maxIndex left.maxCounter right.maxCounter
  | .subtract left right => maxIndex left.maxCounter right.maxCounter

def display : Expr → String
  | .zero => "0"
  | .counter index => s!"#{Numeral.decimal index.toNat}"
  | .add left right => s!"({left.display} + {right.display})"
  | .subtract left right => s!"({left.display} - {right.display})"

end Expr

end ExecCounts
