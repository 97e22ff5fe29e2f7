import ExecCounts.Proofs.Ascending
import ExecCounts.Proofs.Coverage.Folds
import ExecCounts.Proofs.Partition
import ExecCounts.Proofs.Utf8.Order
import Mathlib

set_option autoImplicit false

namespace ExecCounts

namespace LineCoverage

def Before (a b : LineCoverage) : Prop :=
  a.filename < b.filename ∨ a.filename = b.filename ∧ a.number < b.number

theorem Before.asymm {a b : LineCoverage} (before : a.Before b) : ¬ b.Before a := by
  rintro (after | ⟨same, after⟩)
  · obtain before | ⟨other, -⟩ := before
    · exact lt_asymm before after
    · exact after.ne other.symm
  · obtain before | ⟨-, before⟩ := before
    · exact before.ne same.symm
    · exact Nat.lt_asymm before after

instance : Std.Asymm Before := ⟨fun _ _ => Before.asymm⟩

theorem Before.filename_le {a b : LineCoverage} (before : a.Before b) : a.filename ≤ b.filename :=
  before.elim le_of_lt fun both => le_of_eq both.1

end LineCoverage

namespace Report

structure Scanned (report : Report) : Prop where
  withinLines : ∀ filename, (report.fileRange filename).1 ≤ (report.fileRange filename).2 ∧
    (report.fileRange filename).2 ≤ report.lines.length
  fileLines : ∀ filename, report.fileLines filename =
    report.lines.filter fun line => line.filename == filename
  files : ∀ filename, filename ∈ report.files ↔ ∃ line ∈ report.lines, line.filename = filename
  filesAscending : report.files.Pairwise fun a b => Utf8.bytes a < Utf8.bytes b
  concatenated : report.files.flatMap report.fileLines = report.lines

section Ordered

variable {report : Report} (ordered : report.lines.Pairwise LineCoverage.Before)

theorem mem_files (filename : String) :
    filename ∈ report.files ↔ ∃ line ∈ report.lines, line.filename = filename := by
  rw [files, mem_erase_reps, List.mem_map]

include ordered

theorem below_partitioned (filename : String) :
    Partitioned (fun line => decide (line.filename < filename)) report.lines :=
  ordered.imp fun before below =>
    decide_eq_true (lt_of_le_of_lt before.filename_le (of_decide_eq_true below))

theorem up_to_partitioned (filename : String) :
    Partitioned (fun line => decide (line.filename ≤ filename)) report.lines :=
  ordered.imp fun before below =>
    decide_eq_true (le_trans before.filename_le (of_decide_eq_true below))

theorem file_range_eq (filename : String) : report.fileRange filename =
    (report.lines.countP fun line => decide (line.filename < filename),
      report.lines.countP fun line => decide (line.filename ≤ filename)) := by
  rw [fileRange, (below_partitioned ordered filename).partition_point_eq,
    (up_to_partitioned ordered filename).partition_point_eq]

theorem file_range_within (filename : String) :
    (report.fileRange filename).1 ≤ (report.fileRange filename).2 ∧
      (report.fileRange filename).2 ≤ report.lines.length := by
  rw [file_range_eq ordered]
  refine ⟨List.countP_mono_left fun line _ below => ?_, List.countP_le_length⟩
  exact decide_eq_true (le_of_lt (of_decide_eq_true below))

theorem file_lines_eq (filename : String) : report.fileLines filename =
    report.lines.filter fun line => line.filename == filename := by
  have upTo := up_to_partitioned ordered filename
  have below : Partitioned _ (report.lines.filter fun line => decide (line.filename ≤ filename)) :=
    (below_partitioned ordered filename).filter _
  have start : (report.lines.filter fun line => decide (line.filename ≤ filename)).countP
      (fun line => decide (line.filename < filename)) =
        report.lines.countP fun line => decide (line.filename < filename) := by
    rw [List.countP_filter]
    refine List.countP_congr fun line _ => ?_
    rw [Bool.and_eq_true, and_iff_left_iff_imp]
    exact fun below => decide_eq_true (le_of_lt (of_decide_eq_true below))
  rw [fileLines, file_range_eq ordered]
  dsimp only
  rw [Array.toList_extract, List.extract_eq_take_drop, ← List.drop_take, upTo.take_count, ← start,
    below.drop_count, List.filter_filter]
  refine List.filter_congr fun line _ => ?_
  rw [Bool.eq_iff_iff, Bool.and_eq_true, Bool.not_eq_true', decide_eq_false_iff_not, not_lt,
    decide_eq_true_iff, beq_iff_eq]
  exact ⟨fun bounds => le_antisymm bounds.2 bounds.1, fun same => ⟨ge_of_eq same, le_of_eq same⟩⟩

theorem files_ordered : report.files.Pairwise (· < ·) := by
  have sorted : (report.lines.map LineCoverage.filename).Pairwise fun a b => (compare a b).isLE := by
    refine List.pairwise_map.mpr (ordered.imp ?_)
    rintro a b (less | ⟨same, -⟩)
    · rw [compare_lt_iff_lt.mpr less]
      rfl
    · rw [same, Std.ReflOrd.compare_self]
      rfl
  exact (erase_reps_ascending _ sorted).imp compare_lt_iff_lt.mp

theorem files_ascending : report.files.Pairwise fun a b => Utf8.bytes a < Utf8.bytes b :=
  (files_ordered ordered).imp fun less =>
    (Utf8.compare_lt_iff _ _).mp (compare_lt_iff_lt.mpr less)

theorem mem_file_lines (filename : String) (line : LineCoverage) :
    line ∈ report.fileLines filename ↔ line ∈ report.lines ∧ line.filename = filename := by
  rw [file_lines_eq ordered, List.mem_filter, beq_iff_eq]

theorem files_concatenated : report.files.flatMap report.fileLines = report.lines := by
  refine List.Pairwise.eq_of_mem_iff (List.pairwise_flatMap.mpr ⟨?_, ?_⟩) ordered fun line => ?_
  · intro filename _
    rw [file_lines_eq ordered]
    exact ordered.filter _
  · refine (files_ordered ordered).imp fun less line listed other otherListed => .inl ?_
    rwa [((mem_file_lines ordered _ line).mp listed).2,
      ((mem_file_lines ordered _ other).mp otherListed).2]
  · simp only [List.mem_flatMap, mem_file_lines ordered, mem_files]
    constructor
    · rintro ⟨_, -, listed, -⟩
      exact listed
    · intro listed
      exact ⟨line.filename, ⟨line, listed, rfl⟩, listed, rfl⟩

theorem scanned : report.Scanned where
  withinLines := file_range_within ordered
  fileLines := file_lines_eq ordered
  files := mem_files
  filesAscending := files_ascending ordered
  concatenated := files_concatenated ordered

end Ordered

end Report

theorem aggregate_scanned (policy : Policy) (fold : LineFold) (profile : Profile)
    (mappings : Mappings) (report : Report)
    (aggregated : aggregate policy fold profile mappings = .ok report) : report.Scanned := by
  obtain ⟨contributions, skipped, settled, rfl⟩ :=
    (Coverage.aggregate_ok_iff policy fold profile mappings report).mp aggregated
  exact Report.scanned (Coverage.report_lines_sorted fold _ (Coverage.settled_placed settled))

def prefixedNames : Mappings where
  functions := [
    ⟨"f", 1, .v14, ["a.cc"], [⟨0, ⟨1, 1⟩, ⟨1, 9⟩, .code, .counter 0, none, none⟩]⟩,
    ⟨"g", 2, .v14, ["b.c", "a.c"], [⟨0, ⟨0, 1⟩, ⟨0, 2⟩, .code, .counter 0, none, none⟩,
      ⟨1, ⟨2, 1⟩, ⟨2, 2⟩, .code, .counter 0, none, none⟩]⟩]
  skipped := []

theorem aggregate_scanned_prefixed_names : ∃ report : Report,
    aggregate .strict .sum (Profile.empty .indexed) prefixedNames = .ok report ∧
      report.fileLines "a.c" = [⟨"a.c", 1, 0, false⟩, ⟨"a.c", 2, 0, true⟩] ∧
        report.fileLines "a.cc" = [⟨"a.cc", 1, 0, true⟩] ∧ report.fileLines "b.c" = [] ∧
          "b.c" ∉ report.files ∧ report.files.flatMap report.fileLines = report.lines := by
  have computed : Report.lines <$>
      aggregate .strict .sum (Profile.empty .indexed) prefixedNames = .ok
        [⟨"a.c", 1, 0, false⟩, ⟨"a.c", 2, 0, true⟩, ⟨"a.cc", 1, 0, true⟩] := by
    cbv
  obtain ⟨report, aggregated, lines⟩ := (map_ok_iff _ _ _).mp computed
  have scanned :=
    aggregate_scanned .strict .sum (Profile.empty .indexed) prefixedNames report aggregated
  refine ⟨report, aggregated, ?_, ?_, ?_, ?_, scanned.concatenated⟩
  all_goals simp only [scanned.fileLines, scanned.files, lines]
  all_goals decide

end ExecCounts
