import ExecCounts.Proofs.Mapping.Sections
import ExecCounts.Proofs.Supply

set_option autoImplicit false

namespace ExecCounts

open Read

def FunctionMapping.worth (mapping : FunctionMapping) : Nat :=
  mapping.filenames.length + 5 * mapping.regions.length

namespace Section

variable {credit : Nat}

theorem read_head_covers (scope : Scope) (budget : Nat) :
    Covers (Cursor.supply 1) (readHead scope budget) credit fun _ => credit + 1 := by
  apply bind_covers (local_covers position_local)
  intro start
  apply bind_covers uleb_covers
  intro encoded
  dsimp only
  split
  · apply bind_covers (local_covers (of_except_local _))
    rintro ⟨counter, left⟩
    exact pure_covers (Nat.le_refl _)
  · split
    · apply check_covers
      exact pure_covers (Nat.le_refl _)
    · split
      · exact pure_covers (Nat.le_refl _)
      · split
        · exact pure_covers (Nat.le_refl _)
        · split
          · apply bind_covers (local_covers uleb_local)
            intro first
            apply bind_covers (local_covers (of_except_local _))
            rintro ⟨counter, between⟩
            apply bind_covers (local_covers uleb_local)
            intro second
            apply bind_covers (local_covers (of_except_local _))
            rintro ⟨falseCounter, left⟩
            exact pure_covers (Nat.le_refl _)
          · exact throw_covers _ _

theorem read_region_covers (scope : Scope) (fileId line : UInt32) (budget : Nat) :
    Covers (Cursor.supply 1) (readRegion scope fileId line budget) credit fun _ => credit + 5 := by
  apply bind_covers (read_head_covers scope budget)
  rintro ⟨head, left⟩
  apply bind_covers uleb32_covers
  intro lineDelta
  apply bind_covers uleb32_covers
  intro startColumn
  apply bind_covers uleb32_covers
  intro lineCount
  apply bind_covers uleb32_covers
  intro endColumn
  dsimp only
  generalize loadColumns startColumn endColumn = columns
  obtain ⟨isGap, first, last⟩ := columns
  apply bind_covers (local_covers (of_except_local _))
  intro startLine
  apply bind_covers (local_covers (of_except_local _))
  intro endLine
  apply check_covers
  exact pure_covers (Nat.le_refl _)

theorem read_regions_covers (scope : Scope) (fileId : UInt32) (n : Nat) (line : UInt32)
    (budget : Nat) : Covers (Cursor.supply 1) (readRegions scope fileId n line budget) credit
      fun found => credit + 5 * found.1.length := by
  induction n generalizing credit line budget with
  | zero => exact pure_covers (Nat.le_refl _)
  | succ n ih =>
      apply bind_covers (read_region_covers scope fileId line budget)
      rintro ⟨region, between⟩
      apply bind_covers (ih region.start.line between)
      rintro ⟨regions, left⟩
      apply pure_covers
      dsimp only
      rw [List.length_cons]
      omega

theorem read_files_covers (scope : Scope) (n fileId budget : Nat) :
    Covers (Cursor.supply 1) (readFiles scope n fileId budget) credit
      fun regions => credit + 5 * regions.length := by
  induction n generalizing credit fileId budget with
  | zero => exact pure_covers (Nat.le_refl _)
  | succ n ih =>
      apply bind_covers (local_covers uleb_local)
      intro count
      apply bind_covers (read_regions_covers scope _ _ _ _)
      rintro ⟨regions, between⟩
      apply bind_covers (ih (fileId + 1) between)
      intro others
      apply pure_covers
      dsimp only
      rw [List.length_append]
      omega

theorem read_filename_covers (filenames : List String) :
    Covers (Cursor.supply 1) (readFilename filenames) credit fun _ => credit + 1 := by
  apply bind_covers uleb_covers
  intro index
  dsimp only
  split
  · exact pure_covers (Nat.le_refl _)
  · exact throw_covers _ _

theorem read_operands_covers :
    Covers (Cursor.supply 1) readOperands credit fun _ => credit + 1 := by
  apply bind_covers uleb_covers
  intro left
  apply bind_covers (local_covers uleb_local)
  intro right
  exact pure_covers (Nat.le_refl _)

theorem read_function_covers (layout : MappingLayout) (filenames : List String) :
    Covers (Cursor.supply 1) (readFunction layout filenames) 0
      fun found => found.1.length + 5 * found.2.length := by
  apply bind_covers get_covers
  intro cursor
  apply bind_covers (local_covers uleb_local)
  intro fileCount
  apply bind_covers (times_covers_length (fun _ => read_filename_covers filenames) _)
  intro files
  apply bind_covers (local_covers uleb_local)
  intro exprCount
  apply bind_covers (times_covers_length (fun _ => read_operands_covers) _)
  intro table
  apply bind_covers (read_files_covers _ _ _ _)
  intro regions
  apply ended_covers
  · apply bind_covers (local_covers position_local)
    intro offset
    exact thrown_covers _ _ _
  · dsimp only
    omega

theorem read_record_head_covers :
    Covers (Cursor.supply 1) readRecordHead credit fun _ => credit + 13 := by
  apply bind_covers (local_covers position_local)
  intro offset
  apply bind_covers uleb_text_covers
  intro name
  apply bind_covers u64_covers
  intro hash
  apply bind_covers u32_covers
  intro size
  apply pure_covers
  exact Nat.le_refl _

theorem read_record_covers (layout : MappingLayout) :
    Covers (Cursor.supply 1) (readRecord layout) credit
      fun record => credit + (13 + record.body.remaining) := by
  rw [read_record_eq]
  apply bind_covers read_record_head_covers
  intro head
  apply bind_covers get_covers
  intro cursor
  apply bind_covers (bytes_covers _)
  intro data
  apply bind_covers (local_covers (read_padding_local layout))
  intro padded
  apply pure_covers
  change credit + (13 + data.length) ≤ _
  omega

theorem decode_record_worth (preamble : Preamble) (record : Record) :
    Transcript.entryWorth 13 FunctionMapping.worth (decodeRecord preamble record) ≤
      13 + record.body.remaining := by
  rw [decodeRecord, Cursor.read]
  cases ran : readFunction preamble.version.mappingLayout preamble.filenames record.body with
  | ok found after =>
      have taken := read_function_covers _ _ record.body found after ran
      simp only [Cursor.supply, Transcript.entryWorth, FunctionMapping.worth] at taken ⊢
      omega
  | error failure after => exact Nat.le_add_right _ _

theorem read_entry_covers (preamble : Preamble) :
    Covers (Cursor.supply 1) (readEntry preamble) credit
      fun entry => credit + Transcript.entryWorth 13 FunctionMapping.worth entry := by
  rw [readEntry, map_eq_pure_bind]
  apply bind_covers (read_record_covers _)
  intro record
  apply pure_covers
  exact Nat.add_le_add_left (decode_record_worth preamble record) credit

theorem read_section_covers : Covers (Cursor.supply 1) readSection 0
    fun entries => (entries.map (Transcript.entryWorth 13 FunctionMapping.worth)).sum := by
  apply bind_covers (local_covers read_opening_local)
  intro preamble
  apply (times_covers (fun _ => read_entry_covers preamble) preamble.recordCount).mono
  intro entries
  exact Nat.le_add_left _ _

theorem sections_worth (fuel : Nat) (cursor : Cursor)
    (ended : (sections fuel cursor).outcome = .ok ()) :
    ((sections fuel cursor).entries.map (Transcript.entryWorth 13 FunctionMapping.worth)).sum ≤
      cursor.remaining := by
  induction fuel generalizing cursor with
  | zero => exact Nat.zero_le _
  | succ fuel ih =>
      obtain ⟨-, nothing⟩ | ⟨entries, last, ran, laterEnded⟩ := sections_ended fuel ended
      · rw [nothing]
        exact Nat.zero_le _
      · have own := read_section_covers cursor entries last ran
        have later := ih last laterEnded
        rw [sections_step ran]
        simp only [Cursor.supply, List.map_append, List.sum_append] at own ⊢
        omega

end Section

namespace Mappings

theorem parse_worth (policy : Policy) (data : Bytes) (mappings : Mappings)
    (parsed : parse policy data = .ok mappings) :
    13 * (mappings.functions.length + mappings.skipped.length) +
      (mappings.functions.map FunctionMapping.worth).sum ≤ data.length := by
  obtain ⟨⟨functions, skipped⟩, settled, same⟩ := (bind_ok_iff _ _ _).mp parsed
  cases same
  obtain ⟨-, -, -, result, ended⟩ := Transcript.settle_ok_parts policy _ functions skipped settled
  rw [Transcript.settled_worth policy _ functions skipped settled]
  exact Section.sections_worth data.length (Cursor.little data) ended

end Mappings

end ExecCounts
