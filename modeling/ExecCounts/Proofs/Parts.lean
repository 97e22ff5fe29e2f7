import ExecCounts.Parts

set_option autoImplicit false

namespace ExecCounts

theorem parts_intercalate {α : Type} [DecidableEq α] {separator : α} (first : List α)
    (rest : List (List α)) (absent : ∀ part ∈ first :: rest, separator ∉ part) :
    parts separator ([separator].intercalate (first :: rest)) = first :: rest := by
  induction rest generalizing first with
  | nil => rw [List.intercalate_singleton, parts_of_not_mem (absent first List.mem_cons_self)]
  | cons second rest ih =>
      have later := ih second fun part member => absent part (List.mem_cons_of_mem _ member)
      rw [List.intercalate_cons_cons, List.append_assoc, List.singleton_append,
        parts_append_cons _ (absent first List.mem_cons_self), later]

section Separated

variable {α : Type} [DecidableEq α] {separator : α}

theorem parts_ne_nil (list : List α) : parts separator list ≠ [] := by
  cases list with
  | nil => exact List.cons_ne_nil _ _
  | cons a rest =>
      rw [parts]
      split
      · exact List.cons_ne_nil _ _
      · split <;> exact List.cons_ne_nil _ _

theorem parts_append (first rest : List α) : parts separator (first ++ separator :: rest) =
    parts separator first ++ parts separator rest := by
  induction first with
  | nil => simp [parts]
  | cons a first ih =>
      rw [List.cons_append, parts, parts, ih]
      split
      · rfl
      · cases own : parts separator first with
        | nil => exact absurd own (parts_ne_nil first)
        | cons part others => rfl

theorem length_parts (list : List α) :
    (parts separator list).length = list.count separator + 1 := by
  induction list with
  | nil => rfl
  | cons a rest ih =>
      rw [parts]
      split
      · rename_i same
        rw [List.length_cons, ih, same, List.count_cons_self]
      · rename_i other
        rw [List.count_cons_of_ne other, ← ih]
        cases own : parts separator rest with
        | nil => exact absurd own (parts_ne_nil rest)
        | cons part others => rfl

end Separated

theorem length_flat_map_le {α β : Type} (values : List α) (write : α → List β)
    (nonempty : ∀ value ∈ values, 0 < (write value).length) :
    values.length ≤ (values.flatMap write).length := by
  induction values with
  | nil => exact Nat.zero_le _
  | cons value others ih =>
      have own := nonempty value List.mem_cons_self
      have rest := ih fun other member => nonempty other (List.mem_cons_of_mem _ member)
      rw [List.flatMap_cons, List.length_append, List.length_cons]
      omega

theorem length_part_le {α β : Type} (values : List α) (write : α → List β) (value : α)
    (member : value ∈ values) : (write value).length ≤ (values.flatMap write).length := by
  induction values with
  | nil => cases member
  | cons first others ih =>
      rw [List.flatMap_cons, List.length_append]
      rcases List.mem_cons.mp member with rfl | later
      · exact Nat.le_add_right _ _
      · exact Nat.le_add_left_of_le (ih later)

end ExecCounts
