import ExecCounts.Proofs.Text.Line

set_option autoImplicit false

namespace ExecCounts

def Blank (text : List Char) : Prop := ∀ c ∈ text, isBlank c = true

instance (text : List Char) : Decidable (Blank text) :=
  decidable_of_iff (text.all isBlank = true) List.all_eq_true

theorem drop_blank (before text : List Char) (blank : Blank before) :
    (before ++ text).dropWhile isBlank = text.dropWhile isBlank :=
  List.dropWhile_append_of_pos blank

theorem trim_blank (text : List Char) (blank : Blank text) : trim text = [] := by
  have none_left := drop_blank text [] blank
  rw [List.append_nil, List.dropWhile_nil] at none_left
  rw [trim, none_left]
  rfl

theorem trim_append_blank (text after : List Char) (blank : Blank after) :
    trim (text ++ after) = trim text := by
  have reversed : Blank after.reverse := fun c member => blank c (List.mem_reverse.mp member)
  have none_left := drop_blank after [] blank
  rw [List.append_nil, List.dropWhile_nil] at none_left
  rw [trim, trim, List.dropWhile_append]
  cases kept : text.dropWhile isBlank with
  | nil => simp [none_left]
  | cons c rest =>
      rw [List.isEmpty_cons, if_neg Bool.false_ne_true, List.reverse_append,
        drop_blank _ _ reversed]

theorem trim_surrounded (before text after : List Char) (blankBefore : Blank before)
    (blankAfter : Blank after) : trim (before ++ text ++ after) = trim text := by
  rw [trim_append_blank _ _ blankAfter, trim, drop_blank _ _ blankBefore, trim]

theorem trim_of_ends (first last : Char) (text : List Char) (firstUnblank : isBlank first = false)
    (lastUnblank : isBlank last = false) (ends : (first :: text).getLast? = some last) :
    trim (first :: text) = first :: text := by
  obtain ⟨inner, shape⟩ := List.getLast?_eq_some_iff.mp ends
  rw [trim, List.dropWhile_cons_of_neg (by simp [firstUnblank]), shape, List.reverse_append,
    List.reverse_singleton, List.singleton_append,
    List.dropWhile_cons_of_neg (by simp [lastUnblank]), List.reverse_cons, List.reverse_reverse]

theorem trim_cons (first : Char) (text : List Char) (unblank : isBlank first = false) :
    ∃ rest, trim (first :: text) = first :: rest := by
  have kept : [first].dropWhile isBlank = [first] := List.dropWhile_cons_of_neg (by simp [unblank])
  rw [trim, List.dropWhile_cons_of_neg (by simp [unblank]), List.reverse_cons, List.dropWhile_append,
    kept]
  split
  · exact ⟨[], rfl⟩
  · exact ⟨(text.reverse.dropWhile isBlank).reverse, by simp⟩

namespace Line

inductive Ignored : List Char → Prop
  | blank {text : List Char} (blank : Blank text) : Ignored text
  | comment {before : List Char} (blank : Blank before) (text : List Char) :
      Ignored (before ++ '#' :: text)

inductive Joins : List (List Char) → List Char → Prop
  | last (line : List Char) : Joins [line] line
  | lineFeed (line : List Char) {lines : List (List Char)} {text : List Char}
      (rest : Joins lines text) : Joins (line :: lines) (line ++ '\n' :: text)
  | carriageReturn (line : List Char) {lines : List (List Char)} {text : List Char}
      (rest : Joins lines text) : Joins (line :: lines) (line ++ '\r' :: '\n' :: text)

theorem joins_line_feeds (line : List Char) (lines : List (List Char)) :
    Joins (line :: lines) (['\n'].intercalate (line :: lines)) := by
  induction lines generalizing line with
  | nil =>
      rw [List.intercalate_singleton]
      exact .last line
  | cons next lines ih =>
      rw [List.intercalate_cons_cons, List.append_assoc]
      exact .lineFeed line (ih next)

theorem ignored_text (text : List Char) (ignored : Ignored text) : matters (trim text) = false := by
  cases ignored with
  | blank blank => rw [trim_blank text blank]; rfl
  | @comment before blank text =>
      obtain ⟨rest, trimmed⟩ := trim_cons '#' text (by decide)
      have dropped := trim_surrounded before ('#' :: text) [] blank nofun
      rw [List.append_nil] at dropped
      rw [dropped, trimmed]
      rfl

theorem joined_parts (lines : List (List Char)) (text : List Char) (joined : Joins lines text)
    (unbroken : ∀ line ∈ lines, '\n' ∉ line) :
    (parts '\n' text).map trim = lines.map trim := by
  induction joined with
  | last line => rw [parts_of_not_mem (unbroken line List.mem_cons_self)]
  | @lineFeed line lines text rest ih =>
      obtain ⟨own, others⟩ := List.forall_mem_cons.mp unbroken
      rw [parts_append_cons text own, List.map_cons, ih others, List.map_cons]
  | @carriageReturn line lines text rest ih =>
      obtain ⟨own, others⟩ := List.forall_mem_cons.mp unbroken
      have whole : '\n' ∉ line ++ ['\r'] := by simp [own]
      have cut := parts_append_cons text whole
      rw [List.append_assoc, List.singleton_append] at cut
      rw [cut, List.map_cons, ih others, List.map_cons,
        trim_append_blank line ['\r'] fun c member => by
          cases List.mem_singleton.mp member
          decide]

theorem of_joined (lines : List (List Char)) (text : List Char) (joined : Joins lines text)
    (unbroken : ∀ line ∈ lines, '\n' ∉ line) : ofText text =
      ((lines.zipIdx 1).map fun entry => (⟨entry.2, trim entry.1⟩ : Line)).filter isSignificant := by
  have trimmed_first : ∀ (texts : List (List Char)) (start : Nat),
      ((texts.zipIdx start).map fun entry => (⟨entry.2, trim entry.1⟩ : Line)) =
        ((texts.map trim).zipIdx start).map fun entry => ⟨entry.2, entry.1⟩ := by
    intro texts start
    rw [List.zipIdx_map, List.map_map]
    rfl
  have counted : ofText text = (((parts '\n' text).zipIdx.map fun entry =>
      (⟨entry.2 + 1, trim entry.1⟩ : Line)).filter isSignificant) := rfl
  have shifted : ((parts '\n' text).zipIdx.map fun entry => (⟨entry.2 + 1, trim entry.1⟩ : Line)) =
      ((parts '\n' text).zipIdx 1).map fun entry => ⟨entry.2, trim entry.1⟩ := by
    rw [List.zipIdx_eq_map_add (i := 1), List.map_map]
    apply List.map_congr_left
    rintro ⟨line, index⟩ -
    exact congrArg (Line.mk · (trim line)) (Nat.add_comm index 1)
  rw [counted, shifted, trimmed_first, trimmed_first, joined_parts lines text joined unbroken]

end Line

end ExecCounts
