import ExecCounts.Proofs.Coverage.EnoughCounters
import Mathlib.Algebra.Order.BigOperators.Group.List
import Mathlib.Algebra.Order.Ring.Nat

set_option autoImplicit false

namespace ExecCounts

namespace LineFold

variable (counts : List Count)

theorem combined_eq_zero_iff (fold : LineFold) :
    fold.combined counts = 0 ↔ ∀ count ∈ counts, count = 0 := by
  cases fold with
  | max =>
      constructor
      · intro zero count member
        have bound := le_greatest counts count member
        change counts.foldr Max.max 0 = 0 at zero
        rw [zero] at bound
        exact UInt64.toNat_inj.mp (Nat.le_zero.mp bound)
      · intro all
        obtain zero | member := greatest_mem counts
        · exact zero
        · exact all _ member
  | sum =>
      rw [combined, ← UInt64.toNat_inj, Count.to_nat_clamp, UInt64.toNat_zero, Nat.min_eq_zero_iff,
        or_iff_left (by decide), List.sum_eq_zero_iff_forall_eq_nat, List.forall_mem_map]
      refine forall₂_congr fun count _ => ?_
      rw [← UInt64.toNat_inj, UInt64.toNat_zero]
  | presence =>
      rw [combined, ite_eq_right_iff, List.any_eq_true]
      simp

theorem presence_le_max : combined .presence counts ≤ combined .max counts := by
  by_cases zero : combined .max counts = 0
  · have none_positive : combined .presence counts = 0 := by
      rw [combined_eq_zero_iff] at zero ⊢
      exact zero
    rw [zero, none_positive]
    exact UInt64.le_refl 0
  · have positive : 0 < (combined .max counts).toNat :=
      Nat.pos_of_ne_zero fun none => zero (UInt64.toNat_inj.mp none)
    rw [UInt64.le_iff_toNat_le]
    change (if counts.any (· != 0) then (1 : Count) else 0).toNat ≤ _
    split
    · exact positive
    · exact Nat.zero_le _

theorem max_le_sum : combined .max counts ≤ combined .sum counts := by
  rw [UInt64.le_iff_toNat_le, combined, combined, Count.to_nat_clamp]
  refine Nat.le_min.mpr ⟨?_, Count.to_nat_le_limit _⟩
  obtain zero | member := greatest_mem counts
  · rw [zero]
    exact Nat.zero_le _
  · exact List.le_sum_of_mem (List.mem_map_of_mem member)

end LineFold

structure LineCoverage.AtMost (line other : LineCoverage) : Prop where
  filename : line.filename = other.filename
  number : line.number = other.number
  isExecutable : line.isExecutable = other.isExecutable
  count : line.count ≤ other.count
  zero : line.count = 0 ↔ other.count = 0

structure Report.AtMost (report other : Report) : Prop where
  functions : report.functions = other.functions
  skipped : report.skipped = other.skipped
  lines : List.Forall₂ LineCoverage.AtMost report.lines other.lines
  executableLines : report.executableLines = other.executableLines
  coveredLines : report.coveredLines = other.coveredLines

theorem Report.at_most_of_lines (report other : Report) (functions : report.functions = other.functions)
    (skipped : report.skipped = other.skipped)
    (lines : List.Forall₂ LineCoverage.AtMost report.lines other.lines) : report.AtMost other where
  functions := functions
  skipped := skipped
  lines := lines
  executableLines := by
    refine (List.rel_filter ?_ lines).length_eq
    intro line same atMost
    dsimp only
    rw [atMost.isExecutable]
  coveredLines := by
    refine (List.rel_filter ?_ lines).length_eq
    intro line same atMost
    simp only [atMost.isExecutable, Bool.and_eq_true, bne_iff_ne, ne_eq, atMost.zero]

namespace Coverage

section Lines

variable {first second : LineFold}
  (smaller : ∀ counts, first.combined counts ≤ second.combined counts)

include smaller

theorem covered_line_at_most (filename : String) (segments : List Segment) (number : Nat) :
    (coveredLine first filename segments number).AtMost
      (coveredLine second filename segments number) where
  filename := rfl
  number := rfl
  isExecutable := rfl
  count := smaller _
  zero := (LineFold.combined_eq_zero_iff _ first).trans (LineFold.combined_eq_zero_iff _ second).symm

theorem report_lines_at_most (segments : List FileSegment)
    (placed : ∀ region ∈ segments,
      1 ≤ region.segment.first ∧ region.segment.last < LineEvent.lastLine) :
    List.Forall₂ LineCoverage.AtMost (reportLines first segments) (reportLines second segments) := by
  have files : List.Forall₂ (fun file same => file = same ∧ file ∈ (byFile segments).toList)
      (byFile segments).toList (byFile segments).toList :=
    List.forall₂_same.mpr fun _ stored => ⟨rfl, stored⟩
  refine List.rel_flatMap files ?_
  rintro file _ ⟨rfl, stored⟩
  have each := by_file_placed segments placed file stored
  dsimp only
  rw [file_lines_eq first file.1 file.2 each, file_lines_eq second file.1 file.2 each,
    List.forall₂_map_left_iff, List.forall₂_map_right_iff, List.forall₂_same]
  exact fun number _ => covered_line_at_most smaller file.1 file.2 number

end Lines

theorem settled_placed {policy : Policy} {profile : Profile} {mappings : List FunctionMapping}
    {contributions : List Contribution} {skipped : List Skipped}
    (settled : (transcript profile (firstOf [] mappings)).settle policy =
      .ok (contributions, skipped)) :
    ∀ region ∈ contributions.flatMap Contribution.segments,
      1 ≤ region.segment.first ∧ region.segment.last < LineEvent.lastLine := by
  obtain ⟨values, result, finished⟩ := Transcript.settle_values _ _ _ _ settled
  rw [transcript_entries _ _ finished, ← first_mappings_eq, contributions_counted] at values
  rw [values, List.flatMap_map]
  exact counted_functions_placed profile mappings

theorem folds_differ_in_magnitude (policy : Policy) (profile : Profile) (mappings : Mappings) :
    (∃ failure, ∀ fold, aggregate policy fold profile mappings = .error failure) ∨
    ∃ presence greatest sum : Report,
      aggregate policy .presence profile mappings = .ok presence ∧
      aggregate policy .max profile mappings = .ok greatest ∧
      aggregate policy .sum profile mappings = .ok sum ∧
      presence.AtMost greatest ∧ greatest.AtMost sum := by
  simp only [aggregate_eq]
  cases settled : (transcript profile (firstOf [] mappings.functions)).settle policy with
  | error failure => exact .inl ⟨failure, fun _ => rfl⟩
  | ok found =>
      have placed := settled_placed settled
      refine .inr ⟨_, _, _, rfl, rfl, rfl, ?_, ?_⟩
      · exact Report.at_most_of_lines _ _ rfl rfl
          (report_lines_at_most LineFold.presence_le_max _ placed)
      · exact Report.at_most_of_lines _ _ rfl rfl
          (report_lines_at_most LineFold.max_le_sum _ placed)

end Coverage

end ExecCounts
