import ExecCounts.Proofs.Mapping.Rounds
import ExecCounts.Proofs.TextProfile.Rounds

set_option autoImplicit false

namespace ExecCounts

/-- Reading ends by itself, and no more rounds of its loops start than there are bytes or lines,
where a byte that is compressed can stand for 2064. What was read takes at least as many bytes or
lines as are counted. -/
theorem declared_counts_bounded (policy : Policy) (data : Bytes) :
    (∃ rounds, Loops Section.Counting.nextSection (Cursor.little data)
        ⟨Mappings.transcript data, rounds⟩ ∧ rounds ≤ 2064 * data.length + 1) ∧
      (∀ mappings, Mappings.parse policy data = .ok mappings →
        13 * (mappings.functions.length + mappings.skipped.length) +
          (mappings.functions.map fun mapping =>
            mapping.filenames.length + 5 * mapping.regions.length).sum ≤ data.length) ∧
      (∀ variant functions, TextProfile.transcript data = .ok (variant, functions) →
        ∃ body rounds, TextProfile.opening data = .ok (variant, body) ∧
          Loops TextProfile.Counting.nextBlock body ⟨functions, rounds⟩ ∧
            rounds ≤ TextProfile.lineCount data + 1) ∧
      ∀ profile, TextProfile.parse policy data = .ok profile →
        profile.records.length + (profile.records.map fun record => record.counters.length +
          (record.allSites.length + record.allSites.flatten.length)).sum ≤
            TextProfile.lineCount data := by
  refine ⟨Mappings.transcript_loops data, Mappings.parse_worth policy data, ?_, ?_⟩
  · intro variant functions read
    exact TextProfile.transcript_loops read
  · intro profile parsed
    have few := TextProfile.parse_worth policy data profile parsed
    apply Nat.le_trans _ few
    apply Nat.add_le_add_right
    omega

/-- A function without files, and one that declares 2^64 - 1 of them. -/
def overstatedSection : Bytes :=
  Section.magic .little ++ [12, 0, 0, 0, 2, 0, 0, 0, 3, 0, 0, 0, 0, 0, 0, 0, 0, 0, 0, 0] ++
    [1, 102, 7, 0, 0, 0, 0, 0, 0, 0, 2, 0, 0, 0, 0, 0] ++
    [1, 103, 9, 0, 0, 0, 0, 0, 0, 0, 10, 0, 0, 0] ++ List.replicate 9 0xFF ++ [1]

/-- A function with a value that was seen, and one that declares 2^64 - 1 counters. -/
def overstatedText : Bytes :=
  Utf8.bytes "f\n1\n1\n5\n:value_profile\n1\n0\n1\n1\n3:4\ng\n2\n18446744073709551615\n7\n"

theorem declared_counts_bounded_overstated :
    (∃ mappings, Mappings.parse .bestEffort overstatedSection = .ok mappings ∧
      mappings.functions.length = 1 ∧ mappings.skipped.length = 1 ∧
        13 * (mappings.functions.length + mappings.skipped.length) +
          (mappings.functions.map fun mapping =>
            mapping.filenames.length + 5 * mapping.regions.length).sum ≤ overstatedSection.length) ∧
      (∃ variant functions body rounds,
        TextProfile.transcript overstatedText = .ok (variant, functions) ∧
          TextProfile.opening overstatedText = .ok (variant, body) ∧
            Loops TextProfile.Counting.nextBlock body ⟨functions, rounds⟩ ∧
              rounds ≤ TextProfile.lineCount overstatedText + 1) ∧
      ∃ profile, TextProfile.parse .bestEffort overstatedText = .ok profile ∧
        profile.records.length = 1 ∧ profile.skipped.length = 1 ∧
          profile.records.length + (profile.records.map fun record => record.counters.length +
            (record.allSites.length + record.allSites.flatten.length)).sum ≤
              TextProfile.lineCount overstatedText := by
  have read : (Mappings.parse .bestEffort overstatedSection).map (fun mappings =>
      (mappings.functions.length, mappings.skipped.length)) = .ok (1, 1) := by decide +kernel
  have opened : (TextProfile.transcript overstatedText).isOk = true := by decide +kernel
  have readText : (TextProfile.parse .bestEffort overstatedText).map (fun profile =>
      (profile.records.length, profile.skipped.length)) = .ok (1, 1) := by decide +kernel
  obtain ⟨mappings, parsed, sizes⟩ := (map_ok_iff _ _ _).mp read
  obtain ⟨functions, skipped⟩ := Prod.mk.inj sizes
  obtain ⟨⟨variant, transcribed⟩, transcript⟩ := (is_ok_iff _).mp opened
  obtain ⟨profile, parsedText, textSizes⟩ := (map_ok_iff _ _ _).mp readText
  obtain ⟨records, skippedRecords⟩ := Prod.mk.inj textSizes
  obtain ⟨-, bounded, -, -⟩ := declared_counts_bounded .bestEffort overstatedSection
  obtain ⟨-, -, loops, boundedText⟩ := declared_counts_bounded .bestEffort overstatedText
  obtain ⟨body, rounds, left, looped, few⟩ := loops variant transcribed transcript
  exact ⟨⟨mappings, parsed, functions, skipped, bounded mappings parsed⟩,
    ⟨variant, transcribed, body, rounds, transcript, left, looped, few⟩,
    ⟨profile, parsedText, records, skippedRecords, boundedText profile parsedText⟩⟩

end ExecCounts
