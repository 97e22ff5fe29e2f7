import ExecCounts.Proofs.Parts
import ExecCounts.Proofs.Text.Numeral
import ExecCounts.Text.Line

set_option autoImplicit false

namespace ExecCounts

theorem trim_unblank (text : List Char) (unblank : ∀ c ∈ text, isBlank c = false) :
    trim text = text := by
  have same : ∀ chars : List Char, (∀ c ∈ chars, isBlank c = false) →
      chars.dropWhile isBlank = chars := by
    intro chars each
    cases chars with
    | nil => rfl
    | cons c rest =>
        exact List.dropWhile_cons_of_neg (by rw [each c List.mem_cons_self]; exact Bool.false_ne_true)
  rw [trim, same text unblank, same text.reverse fun c member => unblank c (List.mem_reverse.mp member),
    List.reverse_reverse]

theorem is_blank_digit (c : Char) (digit : c.isDigit = true) : isBlank c = false := by
  have between := Numeral.is_digit_between c digit
  simp [isBlank]
  omega

namespace Line

def matters (text : List Char) : Bool := isSignificant ⟨0, text⟩

theorem texts_of_text (text : List Char) :
    (ofText text).map Line.text = ((parts '\n' text).map trim).filter matters := by
  have lines : (parts '\n' text).map trim =
      ((parts '\n' text).zipIdx.map fun entry => (⟨entry.2 + 1, trim entry.1⟩ : Line)).map Line.text := by
    rw [List.map_map, ← List.zipIdx_map_fst 0 (parts '\n' text), List.map_map,
      List.zipIdx_map_fst]
    rfl
  rw [lines, List.filter_map]
  rfl

theorem length_of_text (text : List Char) : (ofText text).length ≤ text.length + 1 := by
  have fewer := List.length_filter_le isSignificant
    ((parts '\n' text).zipIdx.map fun entry => (⟨entry.2 + 1, trim entry.1⟩ : Line))
  rw [List.length_map, List.length_zipIdx] at fewer
  rw [length_parts] at fewer
  exact Nat.le_trans fewer (Nat.succ_le_succ List.count_le_length)

def count (text : List Char) : Nat :=
  text.count '\n' + if text.getLast?.all (· == '\n') then 0 else 1

theorem length_of_text_le_count (text : List Char) : (ofText text).length ≤ count text := by
  rw [← List.length_map Line.text, texts_of_text]
  have fewer := List.length_filter_le matters ((parts '\n' text).map trim)
  rw [List.length_map, length_parts] at fewer
  rw [count]
  split
  · rename_i ended
    obtain rfl | ⟨lines, last, rfl⟩ := List.eq_nil_or_concat text
    · exact Nat.le_refl 0
    · rw [List.concat_eq_append] at ended ⊢
      rw [List.getLast?_concat, Option.all_some, beq_iff_eq] at ended
      have behind : ((parts '\n' []).map trim).filter matters = [] := rfl
      have shorter := List.length_filter_le matters ((parts '\n' lines).map trim)
      rw [List.length_map, length_parts] at shorter
      rw [ended, parts_append, List.map_append, List.filter_append, behind, List.append_nil,
        List.count_append]
      exact shorter
  · exact fewer

theorem parts_lines (lines : List String) (unbroken : ∀ line ∈ lines, '\n' ∉ line.toList) :
    parts '\n' (String.join (lines.map (· ++ "\n"))).toList = lines.map String.toList ++ [[]] := by
  rw [String.toList_join]
  induction lines with
  | nil => rfl
  | cons line lines ih =>
      have others := ih fun other member => unbroken other (List.mem_cons_of_mem _ member)
      have newline : (line ++ "\n").toList = line.toList ++ ['\n'] := String.toList_append
      rw [List.map_cons, List.flatMap_cons, newline, List.append_assoc, List.singleton_append,
        parts_append_cons _ (unbroken line List.mem_cons_self), others]
      rfl

structure Shows (lines : List String) (texts : List (List Char)) : Prop where
  unbroken : ∀ line ∈ lines, '\n' ∉ line.toList
  texts : (lines.map fun line => trim line.toList).filter matters = texts

structure Kept (line : String) : Prop where
  unbroken : '\n' ∉ line.toList
  trimmed : trim line.toList = line.toList
  matters : matters line.toList = true

namespace Shows

variable {lines others : List String} {texts otherTexts : List (List Char)}

theorem nil : Shows [] [] := ⟨nofun, rfl⟩

theorem append (first : Shows lines texts) (second : Shows others otherTexts) :
    Shows (lines ++ others) (texts ++ otherTexts) := by
  refine ⟨fun line member => ?_, ?_⟩
  · exact (List.mem_append.mp member).elim (first.unbroken line) (second.unbroken line)
  · rw [List.map_append, List.filter_append, first.texts, second.texts]

theorem keep {line : String} (kept : Kept line) (rest : Shows lines texts) :
    Shows (line :: lines) (line.toList :: texts) := by
  refine ⟨List.forall_mem_cons.mpr ⟨kept.unbroken, rest.unbroken⟩, ?_⟩
  rw [List.map_cons, kept.trimmed, List.filter_cons_of_pos kept.matters, rest.texts]

theorem skip {line : String} (unbroken : '\n' ∉ line.toList)
    (ignored : matters (trim line.toList) = false) (rest : Shows lines texts) :
    Shows (line :: lines) texts := by
  refine ⟨List.forall_mem_cons.mpr ⟨unbroken, rest.unbroken⟩, ?_⟩
  rw [List.map_cons, List.filter_cons_of_neg (by rw [ignored]; exact Bool.false_ne_true), rest.texts]

theorem map {α : Type} {f : α → String} (values : List α) (each : ∀ value ∈ values, Kept (f value)) :
    Shows (values.map f) (values.map fun value => (f value).toList) := by
  induction values with
  | nil => exact nil
  | cons value values ih =>
      exact keep (each value List.mem_cons_self)
        (ih fun other member => each other (List.mem_cons_of_mem _ member))

theorem flat_map {α : Type} {f : α → List String} {g : α → List (List Char)} (values : List α)
    (each : ∀ value ∈ values, Shows (f value) (g value)) :
    Shows (values.flatMap f) (values.flatMap g) := by
  induction values with
  | nil => exact nil
  | cons value values ih =>
      rw [List.flatMap_cons, List.flatMap_cons]
      exact append (each value List.mem_cons_self)
        (ih fun other member => each other (List.mem_cons_of_mem _ member))

theorem of_text (shown : Shows lines texts) :
    (ofText (String.join (lines.map (· ++ "\n"))).toList).map Line.text = texts := by
  rw [texts_of_text, parts_lines lines shown.unbroken, List.map_append, List.filter_append,
    List.map_map]
  exact (List.append_nil _).trans shown.texts

end Shows

theorem kept_of_unblank (line : String) (filled : line.toList ≠ [])
    (plain : ∀ c ∈ line.toList, isBlank c = false ∧ c ≠ '#') : Kept line where
  unbroken := by
    intro member
    exact absurd (plain _ member).1 (by decide)
  trimmed := trim_unblank _ fun c member => (plain c member).1
  matters := by
    cases text : line.toList with
    | nil => exact absurd text filled
    | cons c rest =>
        rw [text] at plain
        simpa [matters, isSignificant] using (plain c List.mem_cons_self).2

theorem plain_digit (c : Char) (digit : c.isDigit = true) : isBlank c = false ∧ c ≠ '#' := by
  refine ⟨is_blank_digit c digit, ?_⟩
  rintro rfl
  exact absurd digit (by decide)

theorem kept_decimal (n : Nat) : Kept (Numeral.decimal n) :=
  kept_of_unblank _ (Numeral.decimal_ne_nil n)
    fun c member => plain_digit c (Numeral.mem_decimal n c member)

end Line

end ExecCounts
