import ExecCounts.Coverage.Aggregate
import ExecCounts.Proofs.Coverage.Sweep
import Mathlib.Data.List.Induction
import Mathlib.Algebra.GroupWithZero.Nat

set_option autoImplicit false

namespace ExecCounts

namespace Coverage

def lineAt (filename : String) (count : Option Count) (number : Nat) : LineCoverage :=
  { filename, number, count := count.getD 0, isExecutable := count.isSome }

theorem range_split (start middle stop : Nat) (first : start ≤ middle) (second : middle ≤ stop) :
    List.range' start (stop - start) =
      List.range' start (middle - start) ++ List.range' middle (stop - middle) := by
  have joined := List.range'_append_1 (s := start) (m := middle - start) (n := stop - middle)
  rw [Nat.add_sub_cancel' first] at joined
  rw [joined]
  congr 1
  omega

end Coverage

namespace Span

theorem at_before (start : Nat) (spans : List Span) (ordered : Ordered start spans) (number : Nat)
    (before : number < start) : at? spans number = none := by
  rw [at?, Option.map_eq_none_iff, List.find?_eq_none]
  intro span member
  have bounds := ordered.within span member
  simp
  omega

theorem ordered_tail (start : Nat) (span : Span) (spans : List Span)
    (ordered : Ordered start (span :: spans)) : Ordered (span.last + 1) spans := by
  obtain ⟨first, rest⟩ := List.pairwise_cons.mp ordered.apart
  refine ⟨rest, ?_⟩
  intro other member
  have gap := first other member
  have bounds := ordered.within other (List.mem_cons_of_mem _ member)
  omega

end Span

namespace Coverage

theorem span_lines_eq (filename : String) (last next : Nat) (spans : List Span)
    (ordered : Span.Ordered next spans) (bounded : ∀ span ∈ spans, span.last ≤ last) :
    spanLines filename last next spans = (List.range' next (last + 1 - next)).map fun number =>
      lineAt filename (Span.at? spans number) number := by
  induction spans generalizing next with
  | nil => rfl
  | cons span rest ih =>
      have bounds := ordered.within span List.mem_cons_self
      have top := bounded span List.mem_cons_self
      have tail := Span.ordered_tail next span rest ordered
      have others := ih (span.last + 1) tail fun other member =>
        bounded other (List.mem_cons_of_mem _ member)
      rw [spanLines, others, range_split next span.first (last + 1) bounds.1 (by omega),
        range_split span.first (span.last + 1) (last + 1) (by omega) (by omega), List.map_append,
        List.map_append, List.append_assoc]
      -- The lines before the span, those of the span, and those behind it.
      congr 1
      · apply List.map_congr_left
        intro number member
        have place := List.mem_range'_1.mp member
        rw [Span.at_cons, if_neg (by omega), Span.at_before _ _ tail number (by omega)]
        rfl
      · congr 1
        · apply List.map_congr_left
          intro number member
          have place := List.mem_range'_1.mp member
          rw [Span.at_cons, if_pos (by omega)]
          rfl
        · apply List.map_congr_left
          intro number member
          have place := List.mem_range'_1.mp member
          rw [Span.at_cons, if_neg (by omega)]

theorem le_foldl_max (number : Nat) (values : List Nat) (start : Nat) :
    number ≤ values.foldl max start ↔ number ≤ start ∨ ∃ value ∈ values, number ≤ value := by
  induction values generalizing start with
  | nil => simp
  | cons value rest ih =>
      have split : number ≤ max start value ↔ number ≤ start ∨ number ≤ value := by omega
      rw [List.foldl_cons, ih, split, List.exists_mem_cons_iff, or_assoc]

section File

variable (fold : LineFold) (filename : String) (segments : List Segment)
  (placed : ∀ segment ∈ segments, 1 ≤ segment.first ∧ segment.last < LineEvent.lastLine)

def coveredLine (number : Nat) : LineCoverage where
  filename := filename
  number := number
  count := fold.combined ((covering segments number).map Segment.count)
  isExecutable := !(covering segments number).isEmpty

theorem combined_nil : fold.combined [] = 0 := by
  cases fold <;> rfl

theorem line_at_covering (number : Nat) :
    lineAt filename (if (covering segments number).isEmpty then none
      else some (fold.combined ((covering segments number).map Segment.count))) number =
        coveredLine fold filename segments number := by
  cases found : covering segments number with
  | nil => simp [lineAt, coveredLine, found, combined_nil]
  | cons segment rest => simp [lineAt, coveredLine, found]

theorem covering_filter (number : Nat) :
    covering (segments.filter fun segment => segment.first ≤ segment.last) number =
      covering segments number := by
  rw [covering, List.filter_filter]
  apply List.filter_congr
  intro segment _
  rw [Bool.eq_iff_iff]
  simp
  omega

theorem span_covered (proper : LineEvent.Proper segments) (span : Span)
    (member : span ∈ Span.ofSegments fold segments) (number : Nat)
    (inside : span.first ≤ number ∧ number ≤ span.last) :
    ∃ segment ∈ segments, segment.first ≤ number ∧ number ≤ segment.last := by
  have found := Span.at_some_iff.mpr ⟨span, member, inside⟩
  rw [Span.of_segments_at fold segments proper number] at found
  apply (Span.covering_some_iff segments number).mp
  cases empty : (covering segments number).isEmpty with
  | true => simp [empty] at found
  | false => rfl

include placed

theorem file_lines_eq : fileLines fold filename segments =
    (List.range' 1 ((segments.map Segment.last).foldl max 0)).map
      (coveredLine fold filename segments) := by
  have proper : LineEvent.Proper (segments.filter fun segment =>
      segment.first ≤ segment.last) := by
    intro segment member
    obtain ⟨listed, order⟩ := List.mem_filter.mp member
    exact ⟨of_decide_eq_true order, (placed segment listed).2⟩
  -- Every span has a segment that covers its first line and one that covers its last.
  have ordered : Span.Ordered 1 (Span.ofSegments fold (segments.filter fun segment =>
      segment.first ≤ segment.last)) := by
    refine ⟨(Span.of_segments_ordered fold _).apart, ?_⟩
    intro span member
    have bounds := (Span.of_segments_ordered fold _).within span member
    obtain ⟨segment, kept, covers⟩ := span_covered fold _ proper span member span.first
      ⟨Nat.le_refl _, bounds.2⟩
    have start := (placed segment (List.mem_of_mem_filter kept)).1
    exact ⟨Nat.le_trans start covers.1, bounds.2⟩
  have bounded : ∀ span ∈ Span.ofSegments fold (segments.filter fun segment =>
      segment.first ≤ segment.last), span.last ≤ (segments.map Segment.last).foldl max 0 := by
    intro span member
    have bounds := (Span.of_segments_ordered fold _).within span member
    obtain ⟨segment, kept, covers⟩ := span_covered fold _ proper span member span.last
      ⟨bounds.2, Nat.le_refl _⟩
    exact (le_foldl_max _ _ _).mpr
      (.inr ⟨segment.last, List.mem_map_of_mem (List.mem_of_mem_filter kept), covers.2⟩)
  rw [fileLines, span_lines_eq filename _ 1 _ ordered bounded, Nat.add_sub_cancel]
  apply List.map_congr_left
  intro number _
  rw [Span.of_segments_at fold _ proper, covering_filter, line_at_covering]

theorem mem_file_lines (line : LineCoverage) : line ∈ fileLines fold filename segments ↔
    1 ≤ line.number ∧ (∃ segment ∈ segments, line.number ≤ segment.last) ∧
      line = coveredLine fold filename segments line.number := by
  rw [file_lines_eq fold filename segments placed, List.mem_map]
  constructor
  · rintro ⟨number, member, rfl⟩
    have place := List.mem_range'_1.mp member
    have reached : number ≤ (segments.map Segment.last).foldl max 0 := by omega
    refine ⟨place.1, ?_, rfl⟩
    obtain zero | ⟨last, listed, below⟩ := (le_foldl_max _ _ _).mp reached
    · omega
    · obtain ⟨segment, known, rfl⟩ := List.mem_map.mp listed
      exact ⟨segment, known, below⟩
  · rintro ⟨positive, ⟨segment, known, below⟩, same⟩
    have reached := (le_foldl_max line.number (segments.map Segment.last) 0).mpr
      (.inr ⟨segment.last, List.mem_map_of_mem known, below⟩)
    exact ⟨line.number, List.mem_range'_1.mpr (by omega), same.symm⟩

end File

def inFile (filename : String) (segments : List FileSegment) : List Segment :=
  (segments.filter (·.filename == filename)).map FileSegment.segment

theorem by_file_get (segments : List FileSegment) (filename : String) :
    (byFile segments)[filename]? = if (inFile filename segments).isEmpty then none
      else some (inFile filename segments).reverse := by
  induction segments using List.reverseRecOn with
  | nil => exact Std.ExtTreeMap.getElem?_empty
  | append_singleton segments last ih =>
      rw [byFile, List.foldl_append, List.foldl_cons, List.foldl_nil,
        Std.ExtTreeMap.getElem?_alter, ← byFile]
      simp only [Std.LawfulEqCmp.compare_eq_iff_eq]
      by_cases same : last.filename = filename
      · subst same
        rw [if_pos rfl, ih]
        have appended : inFile last.filename (segments ++ [last]) =
            inFile last.filename segments ++ [last.segment] := by
          simp [inFile]
        rw [appended]
        by_cases empty : (inFile last.filename segments).isEmpty
        · simp [List.isEmpty_iff.mp empty]
        · simp [empty]
      · have kept : inFile filename (segments ++ [last]) = inFile filename segments := by
          simp [inFile, same]
        rw [if_neg same, kept, ih]

section Report

variable (fold : LineFold) (segments : List FileSegment)
  (placed : ∀ region ∈ segments,
    1 ≤ region.segment.first ∧ region.segment.last < LineEvent.lastLine)

theorem covered_line_reverse (filename : String) (regions : List Segment) :
    coveredLine fold filename regions.reverse = coveredLine fold filename regions := by
  funext number
  have same : (covering regions.reverse number).Perm (covering regions number) :=
    (List.reverse_perm regions).filter _
  rw [coveredLine, coveredLine, LineFold.combined_perm fold _ _ (same.map _), same.isEmpty_eq]

theorem mem_in_file (filename : String) (segment : Segment) :
    segment ∈ inFile filename segments ↔ ⟨filename, segment⟩ ∈ segments := by
  rw [inFile, List.mem_map]
  constructor
  · rintro ⟨region, kept, rfl⟩
    obtain ⟨listed, same⟩ := List.mem_filter.mp kept
    rwa [← beq_iff_eq.mp same]
  · intro listed
    exact ⟨_, List.mem_filter.mpr ⟨listed, beq_self_eq_true _⟩, rfl⟩

include placed

theorem mem_report_lines (line : LineCoverage) : line ∈ reportLines fold segments ↔
    1 ≤ line.number ∧ (∃ segment ∈ inFile line.filename segments, line.number ≤ segment.last) ∧
      line = coveredLine fold line.filename (inFile line.filename segments) line.number := by
  have each : ∀ (filename : String), ∀ segment ∈ (inFile filename segments).reverse,
      1 ≤ segment.first ∧ segment.last < LineEvent.lastLine := by
    intro filename segment member
    exact placed _ ((mem_in_file segments filename segment).mp (List.mem_reverse.mp member))
  rw [reportLines, List.mem_flatMap]
  constructor
  · rintro ⟨⟨filename, regions⟩, stored, member⟩
    rw [Std.ExtTreeMap.mem_toList_iff_getElem?_eq_some, by_file_get] at stored
    split at stored
    · cases stored
    · cases stored
      obtain ⟨positive, ⟨segment, known, below⟩, same⟩ :=
        (mem_file_lines fold filename _ (each filename) line).mp member
      have name : line.filename = filename := congrArg LineCoverage.filename same
      subst name
      rw [covered_line_reverse] at same
      exact ⟨positive, ⟨segment, List.mem_reverse.mp known, below⟩, same⟩
  · rintro ⟨positive, ⟨segment, known, below⟩, same⟩
    refine ⟨(line.filename, (inFile line.filename segments).reverse), ?_, ?_⟩
    · rw [Std.ExtTreeMap.mem_toList_iff_getElem?_eq_some, by_file_get, if_neg]
      intro empty
      rw [List.isEmpty_iff.mp empty] at known
      cases known
    · rw [mem_file_lines fold line.filename _ (each line.filename), covered_line_reverse]
      exact ⟨positive, ⟨segment, List.mem_reverse.mpr known, below⟩, same⟩

theorem by_file_placed : ∀ file ∈ (byFile segments).toList, ∀ segment ∈ file.2,
    1 ≤ segment.first ∧ segment.last < LineEvent.lastLine := by
  rintro ⟨filename, regions⟩ stored segment member
  rw [Std.ExtTreeMap.mem_toList_iff_getElem?_eq_some, by_file_get] at stored
  split at stored
  · cases stored
  · cases stored
    exact placed _ ((mem_in_file segments filename segment).mp (List.mem_reverse.mp member))

theorem report_lines_sorted : (reportLines fold segments).Pairwise fun a b =>
    a.filename < b.filename ∨ a.filename = b.filename ∧ a.number < b.number := by
  have each := by_file_placed segments placed
  rw [reportLines, List.pairwise_flatMap]
  constructor
  · rintro ⟨filename, regions⟩ stored
    dsimp only
    rw [file_lines_eq fold filename regions (each _ stored), List.pairwise_map]
    exact (List.pairwise_lt_range' (s := 1) (n := _)).imp fun less => .inr ⟨rfl, less⟩
  · refine Std.ExtTreeMap.ordered_keys_toList.imp_of_mem ?_
    rintro ⟨first, firstRegions⟩ ⟨second, secondRegions⟩ firstStored secondStored order
    intro line member other otherMember
    have name := ((mem_file_lines fold first _ (each _ firstStored) line).mp member).2.2
    have otherName := ((mem_file_lines fold second _ (each _ secondStored) other).mp otherMember).2.2
    rw [name, otherName]
    exact .inl (compareOfLessAndEq_eq_lt.mp order)

end Report

end Coverage

end ExecCounts
