import ExecCounts.Profile
import Mathlib.Data.List.Basic

set_option autoImplicit false

namespace ExecCounts

theorem Variant.of_word_word (version : Version) (variant : Variant) :
    Variant.ofWord (variant.word (UInt64.ofNat version.tag)) =
      (UInt64.ofNat version.tag, variant) := by
  obtain ⟨ir, contextSensitive, entryFirst⟩ := variant
  cases version <;> cases ir <;> cases contextSensitive <;> cases entryFirst <;> rfl

theorem Version.require_tag (version : Version) :
    Version.require (UInt64.ofNat version.tag) = .ok version := by
  cases version <;> rfl

theorem lookup_fields {Field : Type} [BEq Field] [LawfulBEq Field] (number : Field → Nat)
    (fields : List Field) (field : Field) (small : number field < UInt64.size) :
    ((fields.map fun field => (field, UInt64.ofNat (number field))).lookup field).map UInt64.toNat =
      if field ∈ fields then some (number field) else none := by
  by_cases listed : field ∈ fields
  · rw [List.lookup_graph _ listed, if_pos listed, Option.map_some,
      UInt64.toNat_ofNat_of_lt' small]
  · rw [if_neg listed, Option.map_eq_none_iff, List.lookup_eq_none_iff]
    intro pair member
    obtain ⟨other, otherListed, rfl⟩ := List.mem_map.mp member
    rw [bne_iff_ne]
    rintro rfl
    exact listed otherListed

end ExecCounts
