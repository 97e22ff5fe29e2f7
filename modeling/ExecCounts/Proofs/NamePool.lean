import ExecCounts.Profile
import ExecCounts.Proofs.Placed

set_option autoImplicit false

namespace ExecCounts.NamePool

theorem mem_distinct (name : String) (names : List String) :
    name ∈ distinct names ↔ name ∈ names := List.mem_eraseDups

theorem nodup_distinct (names : List String) : (distinct names).Nodup := by
  cases names with
  | nil => exact List.nodup_nil
  | cons name rest =>
      rw [distinct, List.eraseDups_cons, List.nodup_cons]
      refine ⟨fun again => ?_, nodup_distinct (rest.filter fun other => !other == name)⟩
      have kept := (List.mem_filter.mp (List.mem_eraseDups.mp again)).2
      rw [beq_self_eq_true] at kept
      cases kept
termination_by names.length
decreasing_by
  rw [List.length_cons]
  exact Nat.lt_succ_of_le (List.length_filter_le _ rest)

theorem offset_placed (name : String) (names : List String) (listed : name ∈ names) :
    Placed (names.flatMap Utf8.bytes) (offset 0 name names) (Utf8.bytes name) := by
  induction names with
  | nil => cases listed
  | cons first rest ih =>
      rw [offset, List.flatMap_cons]
      by_cases same : first = name
      · rw [if_pos same, same]
        exact ⟨[], rest.flatMap Utf8.bytes, rfl, rfl⟩
      · rw [if_neg same]
        obtain ⟨before, after, shape, length⟩ :=
          ih ((List.mem_cons.mp listed).resolve_left fun here => same here.symm)
        refine ⟨Utf8.bytes first ++ before, after, ?_, ?_⟩
        · rw [shape, List.append_assoc]
        · rw [List.length_append, length, Nat.add_zero]

theorem offset_last (gap : Nat) (names : List String) (last : String) (new : last ∉ names) :
    offset gap last (names ++ [last]) =
      (names.map fun name => (Utf8.bytes name).length + gap).sum := by
  induction names with
  | nil => exact if_pos rfl
  | cons first rest ih =>
      rw [List.mem_cons, not_or] at new
      rw [List.cons_append, offset, if_neg (Ne.symm new.1), ih new.2, List.map_cons, List.sum_cons]

end ExecCounts.NamePool
