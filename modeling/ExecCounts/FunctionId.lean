import ExecCounts.Text.Numeral

set_option autoImplicit false

namespace ExecCounts

def ascending {α : Type} [Ord α] [BEq α] (values : List α) : List α :=
  (values.mergeSort fun a b => (compare a b).isLE).eraseReps

/-- A function name and a digest of the shape of the function's control flow. Identities are ordered
by name, in the order of the UTF-8 bytes, and then by hash. -/
structure FunctionId where
  name : String
  hash : UInt64
deriving DecidableEq, Repr, Inhabited

namespace FunctionId

instance : Ord FunctionId where
  compare := compareLex (compareOn FunctionId.name) (compareOn FunctionId.hash)

theorem compare_eq (a b : FunctionId) :
    compare a b = (compare a.name b.name).then (compare a.hash b.hash) := rfl

instance : Std.TransOrd FunctionId :=
  inferInstanceAs
    (Std.TransCmp (compareLex (compareOn FunctionId.name) (compareOn FunctionId.hash)))

instance : Std.LawfulEqOrd FunctionId where
  eq_of_compare {a b} same := by
    rw [compare_eq, Ordering.then_eq_eq] at same
    cases a
    cases b
    simp_all

def display (id : FunctionId) : String := s!"{id.name} ({Numeral.hex id.hash.toNat})"

def sorted (ids : List FunctionId) : List FunctionId := ascending ids

end FunctionId

end ExecCounts
