import ExecCounts.Profile
import Std.Data.ExtTreeMap

set_option autoImplicit false

namespace ExecCounts

/-- Shares of the total count are given in parts per million. -/
def cutoffScale : Nat := 1000000

def defaultCutoffs : List Nat :=
  [10000, 100000, 200000, 300000, 400000, 500000, 600000, 700000, 800000, 900000, 950000, 990000,
    999000, 999900, 999990, 999999]

/-- How many of the greatest counters it takes to reach a share of the total count. -/
structure SummaryEntry where
  cutoff : Nat
  minCount : Count
  numCounts : Nat
deriving DecidableEq, Repr

/-- The first counter of a record counts for its function, all others for inner blocks. -/
structure Summary where
  totalCount : Count
  maxCount : Count
  maxFunctionCount : Count
  maxInternalBlockCount : Count
  numCounts : Nat
  numFunctions : Nat
  frequencies : Std.ExtTreeMap Count Nat

namespace Summary

def empty : Summary := ⟨0, 0, 0, 0, 0, 0, ∅⟩

def addCount (summary : Summary) (count : Count) : Summary :=
  { summary with
    totalCount := Count.add summary.totalCount count
    maxCount := max summary.maxCount count
    numCounts := summary.numCounts + 1
    frequencies := summary.frequencies.alter count fun before => some (before.getD 0 + 1) }

def addFunctionCount (summary : Summary) (count : Count) : Summary :=
  let counted := summary.addCount count
  { counted with
    maxFunctionCount := max counted.maxFunctionCount count
    numFunctions := counted.numFunctions + 1 }

def addBlockCount (summary : Summary) (count : Count) : Summary :=
  let counted := summary.addCount count
  { counted with maxInternalBlockCount := max counted.maxInternalBlockCount count }

def addRecord (summary : Summary) (record : FunctionRecord) : Summary :=
  match record.counters with
  | [] => summary
  | entry :: blocks => blocks.foldl addBlockCount (summary.addFunctionCount entry)

/-- The counters seen so far, from the greatest on. -/
structure Hottest where
  rest : List (Count × Nat)
  sum : Nat
  seen : Nat
  least : Count

def Hottest.reach (wanted : Nat) : List (Count × Nat) → Nat → Nat → Count → Hottest
  | [], sum, seen, least => ⟨[], sum, seen, least⟩
  | (count, times) :: rest, sum, seen, least =>
      if sum < wanted then
        reach wanted rest (sum + count.toNat * times) (seen + times) count
      else ⟨(count, times) :: rest, sum, seen, least⟩

def entries (total : Nat) : Hottest → List Nat → List SummaryEntry
  | _, [] => []
  | hottest, cutoff :: cutoffs =>
      let wanted := total * cutoff / cutoffScale
      let reached := Hottest.reach wanted hottest.rest hottest.sum hottest.seen hottest.least
      ⟨cutoff, reached.least, reached.seen⟩ :: entries total reached cutoffs

def detailed (summary : Summary) (cutoffs : List Nat) : List SummaryEntry :=
  entries summary.totalCount.toNat ⟨summary.frequencies.toList.reverse, 0, 0, 0⟩
    (cutoffs.mergeSort fun a b => a ≤ b)

end Summary

namespace Profile

def summary (profile : Profile) : Summary := profile.records.foldl Summary.addRecord .empty

end Profile

end ExecCounts
