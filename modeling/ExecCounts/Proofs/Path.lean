import ExecCounts.Path
import Mathlib.Data.List.DropRight

set_option autoImplicit false

namespace ExecCounts

namespace Path

inductive Absolute : List Char → Prop where
  | root (rest : List Char) : Absolute ('/' :: rest)
  | network (rest : List Char) : Absolute ('\\' :: '\\' :: rest)
  | drive (letter : Char) (rest : List Char) (alpha : letter.isAlpha = true)
      (separated : rest.head?.all isSeparator = true) : Absolute (letter :: ':' :: rest)

theorem absolute_windows_iff (path : List Char) : isAbsoluteWindows path = true ↔
    ['\\', '\\'] <+: path ∨ ['/', '/'] <+: path ∨ ∃ letter rest,
      path = letter :: ':' :: rest ∧ letter.isAlpha = true ∧ rest.head?.all isSeparator = true := by
  unfold isAbsoluteWindows
  rw [Bool.or_eq_true, Bool.or_eq_true, List.isPrefixOf_iff_prefix, List.isPrefixOf_iff_prefix,
    or_assoc]
  refine or_congr_right (or_congr_right ?_)
  rcases path with _ | ⟨letter, _ | ⟨colon, rest⟩⟩
  · simp
  · simp
  · simp [and_assoc, and_left_comm]

theorem absolute_iff (path : List Char) : isAbsolute path = true ↔ Absolute path := by
  rw [isAbsolute, Bool.or_eq_true, absolute_windows_iff]
  constructor
  · rintro (start | ⟨rest, rfl⟩ | ⟨rest, rfl⟩ | ⟨letter, rest, rfl, alpha, separated⟩)
    · cases path with
      | nil => cases start
      | cons c rest =>
          obtain rfl : c = '/' := by simpa using start
          exact .root rest
    · exact .network rest
    · exact .root _
    · exact .drive letter rest alpha separated
  · intro absolute
    cases absolute with
    | root rest => exact .inl rfl
    | network rest => exact .inr (.inl ⟨rest, rfl⟩)
    | drive letter rest alpha separated =>
        exact .inr (.inr (.inr ⟨letter, rest, rfl, alpha, separated⟩))

def Bare (path : List Char) : Prop := ∀ c ∈ path, isSeparator c = true

theorem bare_cons (c : Char) (rest : List Char) :
    Bare (c :: rest) ↔ isSeparator c = true ∧ Bare rest :=
  List.forall_mem_cons

theorem trim_end_cons (c : Char) (rest : List Char) : trimEnd (c :: rest) =
    if (trimEnd rest).isEmpty && isSeparator c then [] else c :: trimEnd rest := by
  rw [trimEnd, trimEnd, List.reverse_cons, List.dropWhile_append]
  cases kept : (rest.reverse.dropWhile isSeparator).isEmpty <;>
    cases separator : isSeparator c <;> simp_all

theorem trim_end_empty_iff (path : List Char) : (trimEnd path).isEmpty = true ↔ Bare path := by
  induction path with
  | nil => exact ⟨fun _ => nofun, fun _ => rfl⟩
  | cons c rest ih =>
      rw [trim_end_cons, bare_cons, ← ih]
      cases (trimEnd rest).isEmpty <;> cases isSeparator c <;> simp

theorem trim_end_kept (c : Char) (rest : List Char) (named : ¬ Bare (c :: rest)) :
    trimEnd (c :: rest) = c :: trimEnd rest := by
  rw [bare_cons, ← trim_end_empty_iff, ← Bool.and_eq_true, Bool.and_comm] at named
  rw [trim_end_cons, if_neg named]

theorem not_bare_tail {c : Char} {rest : List Char} (named : ¬ Bare (c :: rest))
    (separator : isSeparator c = true) : ¬ Bare rest := fun bare =>
  named ((bare_cons c rest).mpr ⟨separator, bare⟩)

theorem not_bare_head {c : Char} (rest : List Char) (plain : isSeparator c = false) :
    ¬ Bare (c :: rest) := by
  intro bare
  rw [((bare_cons c rest).mp bare).1] at plain
  cases plain

theorem letter_plain (letter : Char) (alpha : letter.isAlpha = true) :
    isSeparator letter = false := by
  rw [isSeparator, Bool.or_eq_false_iff, beq_eq_false_iff_ne, beq_eq_false_iff_ne]
  constructor <;> rintro rfl <;> cases alpha

theorem absolute_trimmed (path more : List Char) (separator : Char)
    (separates : isSeparator separator = true) (absolute : Absolute path) (named : ¬ Bare path) :
    Absolute (trimEnd path ++ separator :: more) := by
  cases absolute with
  | root rest =>
      rw [trim_end_kept _ _ named]
      exact .root _
  | network rest =>
      rw [trim_end_kept _ _ named, trim_end_kept _ _ (not_bare_tail named rfl)]
      exact .network _
  | drive letter rest alpha separated =>
      rw [trim_end_kept _ _ named, trim_end_kept _ _ (not_bare_head _ rfl)]
      refine .drive _ _ alpha ?_
      cases rest with
      | nil => exact separates
      | cons c rest =>
          rw [trim_end_cons]
          split
          · exact separates
          · exact separated

theorem windows_relative_iff (path : List Char) (relative : isAbsolute path = false) :
    isWindows path = true ↔ '\\' ∈ path := by
  rw [isAbsolute, Bool.or_eq_false_iff] at relative
  rw [isWindows, relative.2, Bool.false_or, List.contains_iff_mem]

theorem windows_bare_iff (path : List Char) (absolute : Absolute path) (bare : Bare path) :
    isWindows path = true ↔ path ≠ ['/'] := by
  cases absolute with
  | root rest =>
      cases rest with
      | nil => simp [isWindows, isAbsoluteWindows]
      | cons c rest =>
          have second := ((bare_cons c rest).mp ((bare_cons _ _).mp bare).2).1
          rw [isSeparator, Bool.or_eq_true, beq_iff_eq, beq_iff_eq] at second
          rcases second with rfl | rfl <;> simp [isWindows, isAbsoluteWindows]
  | network rest => simp [isWindows]
  | drive letter rest alpha separated =>
      -- A drive is a name.
      exact absurd ((bare_cons _ _).mp bare).1 (by simp [letter_plain letter alpha])

theorem join_relative (base other : List Char) (proper : base ≠ []) (named : other ≠ [])
    (relative : isAbsolute other = false) : join base other = trimEnd base ++
      (if isWindows base || isWindows other then '\\' else '/') :: other.dropWhile isSeparator := by
  rw [join, relative, Bool.or_false, if_neg (mt List.isEmpty_iff.mp proper),
    if_neg (mt List.isEmpty_iff.mp named)]

/-- Nothing is left of a directory without any name when its separators are trimmed, and a single
backslash, which takes their place in a Windows path, is no root. -/
structure RootLost (base other : List Char) : Prop where
  bare : Bare base
  named : other ≠ []
  relative : isAbsolute other = false
  windows : base ≠ ['/'] ∨ '\\' ∈ other

theorem absolute_backslash (rest : List Char) (absolute : Absolute ('\\' :: rest)) :
    ∃ more, rest = '\\' :: more := by
  generalize path : '\\' :: rest = whole at absolute
  cases absolute with
  | root more => cases path
  | network more => exact ⟨more, (List.cons.inj path).2⟩
  | drive letter more alpha separated =>
      rw [← (List.cons.inj path).1] at alpha
      cases alpha

theorem backslash_relative (path : List Char) :
    isAbsolute ('\\' :: path.dropWhile isSeparator) = false := by
  rw [← Bool.not_eq_true, absolute_iff]
  intro absolute
  obtain ⟨more, kept⟩ := absolute_backslash _ absolute
  have again : (path.dropWhile isSeparator).dropWhile isSeparator = path.dropWhile isSeparator :=
    List.dropWhile_idempotent isSeparator path
  rw [kept, List.dropWhile_cons_of_pos rfl] at again
  have shorter := (List.dropWhile_suffix isSeparator (l := more)).length_le
  rw [again, List.length_cons] at shorter
  omega

section Join

variable {base other : List Char} (absolute : Absolute base)

include absolute

theorem join_root_lost (lost : RootLost base other) :
    join base other = '\\' :: other.dropWhile isSeparator := by
  have proper : base ≠ [] := by
    rintro rfl
    cases absolute
  have windows : (isWindows base || isWindows other) = true := by
    rw [Bool.or_eq_true, windows_bare_iff base absolute lost.bare,
      windows_relative_iff other lost.relative]
    exact lost.windows
  have trimmed := List.isEmpty_iff.mp ((trim_end_empty_iff base).mpr lost.bare)
  rw [join_relative base other proper lost.named lost.relative, trimmed, if_pos windows,
    List.nil_append]

theorem join_absolute (kept : ¬ RootLost base other) : Absolute (join base other) := by
  have proper : base ≠ [] := by
    rintro rfl
    cases absolute
  by_cases rooted : isAbsolute other = true
  · rw [join, rooted, Bool.or_true, if_pos rfl]
    exact (absolute_iff other).mp rooted
  rw [Bool.not_eq_true] at rooted
  by_cases named : other = []
  · rw [join, rooted, named, Bool.or_false, if_neg (mt List.isEmpty_iff.mp proper),
      if_pos List.isEmpty_nil]
    exact absolute
  rw [join_relative base other proper named rooted]
  by_cases bare : Bare base
  · have unix : ¬ (isWindows base || isWindows other) = true := by
      rw [Bool.or_eq_true, windows_bare_iff base absolute bare, windows_relative_iff other rooted]
      exact fun windows => kept ⟨bare, named, rooted, windows⟩
    rw [List.isEmpty_iff.mp ((trim_end_empty_iff base).mpr bare), if_neg unix]
    exact .root _
  · apply absolute_trimmed base _ _ _ absolute bare
    split <;> rfl

theorem join_absolute_iff : isAbsolute (join base other) = true ↔ ¬ RootLost base other := by
  refine ⟨fun rooted lost => ?_, fun kept => (absolute_iff _).mpr (join_absolute absolute kept)⟩
  rw [join_root_lost absolute lost, backslash_relative] at rooted
  cases rooted

theorem join_join : join base (join base other) = join base other := by
  by_cases lost : RootLost base other
  · have again : RootLost base (join base other) := by
      rw [join_root_lost absolute lost]
      exact ⟨lost.bare, nofun, backslash_relative other, .inr List.mem_cons_self⟩
    rw [join_root_lost absolute again, join_root_lost absolute lost, List.dropWhile_cons_of_pos rfl,
      List.dropWhile_idempotent]
  · have rooted := (join_absolute_iff absolute).mpr lost
    rw [join, rooted, Bool.or_true, if_pos rfl]

end Join

end Path

theorem join_path_final (base other : String) (absolute : isAbsolutePath base = true) :
    (isAbsolutePath (joinPath base other) = true ↔ ¬ Path.RootLost base.toList other.toList) ∧
      joinPath base (joinPath base other) = joinPath base other := by
  have rooted := (Path.absolute_iff base.toList).mp absolute
  simp only [isAbsolutePath, joinPath, String.toList_ofList]
  exact ⟨Path.join_absolute_iff rooted, congrArg String.ofList (Path.join_join rooted)⟩

theorem join_path_final_drive : isAbsolutePath "C:/" = true ∧
    isAbsolutePath (joinPath "C:/" "a\\b") = true ∧
      joinPath "C:/" (joinPath "C:/" "a\\b") = joinPath "C:/" "a\\b" := by
  have absolute : isAbsolutePath "C:/" = true := by decide
  obtain ⟨rooted, again⟩ := join_path_final "C:/" "a\\b" absolute
  exact ⟨absolute, rooted.mpr fun lost => absurd (lost.bare 'C' (by decide)) (by decide), again⟩

theorem bare_root_lost : isAbsolutePath "/" = true ∧ joinPath "/" "a\\b" = "\\a\\b" ∧
    isAbsolutePath "\\a\\b" = false := by
  decide

end ExecCounts
