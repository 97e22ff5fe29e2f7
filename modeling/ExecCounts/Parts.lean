set_option autoImplicit false

namespace ExecCounts

variable {α : Type} [DecidableEq α]

/-- The parts between separators; there is one more of them than there are separators. -/
def parts (separator : α) : List α → List (List α)
  | [] => [[]]
  | a :: rest =>
      if a = separator then [] :: parts separator rest
      else match parts separator rest with
        | [] => [[a]]
        | first :: others => (a :: first) :: others

theorem parts_of_not_mem {separator : α} {list : List α} (absent : separator ∉ list) :
    parts separator list = [list] := by
  induction list with
  | nil => rfl
  | cons a rest ih =>
      rw [List.mem_cons, not_or] at absent
      rw [parts, if_neg (Ne.symm absent.1), ih absent.2]

theorem parts_append_cons {separator : α} {first : List α} (rest : List α)
    (absent : separator ∉ first) :
    parts separator (first ++ separator :: rest) = first :: parts separator rest := by
  induction first with
  | nil => simp [parts]
  | cons a first ih =>
      rw [List.mem_cons, not_or] at absent
      rw [List.cons_append, parts, if_neg (Ne.symm absent.1), ih absent.2]

end ExecCounts
