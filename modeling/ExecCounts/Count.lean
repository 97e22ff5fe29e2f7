set_option autoImplicit false

namespace ExecCounts

/-- Counts stop at their largest value instead of wrapping around, and at zero instead of going
below it. -/
abbrev Count := UInt64

namespace Count

def limit : Nat := UInt64.size - 1

def clamp (n : Nat) : Count := UInt64.ofNat (min n limit)

def add (a b : Count) : Count := clamp (a.toNat + b.toNat)

def sub (a b : Count) : Count := clamp (a.toNat - b.toNat)

theorem to_nat_le_limit (a : Count) : a.toNat ≤ limit := by
  have bound := a.toNat_lt
  simp only [limit, UInt64.size]
  omega

theorem to_nat_clamp (n : Nat) : (clamp n).toNat = min n limit := by
  apply UInt64.toNat_ofNat_of_lt'
  simp only [limit, UInt64.size]
  omega

theorem to_nat_add (a b : Count) : (add a b).toNat = min (a.toNat + b.toNat) limit :=
  to_nat_clamp _

end Count

end ExecCounts
