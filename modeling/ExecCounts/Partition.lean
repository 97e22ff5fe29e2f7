set_option autoImplicit false

namespace ExecCounts

variable {α : Type}

/-- The search once it is known that everything before `start` passes and nothing from `stop` on. -/
def searchBetween (passes : α → Bool) (entries : Array α) (start stop : Nat) : Nat :=
  if start < stop then
    let middle := start + (stop - start) / 2
    if entries[middle]?.any passes then searchBetween passes entries (middle + 1) stop
    else searchBetween passes entries start middle
  else start
termination_by stop - start

def partitionPoint (passes : α → Bool) (entries : Array α) : Nat :=
  searchBetween passes entries 0 entries.size

end ExecCounts
