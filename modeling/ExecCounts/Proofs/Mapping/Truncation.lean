import ExecCounts.Proofs.Cut
import ExecCounts.Proofs.Mapping.Concatenated

set_option autoImplicit false

namespace ExecCounts

namespace Section

variable {missing : Bytes}

section Survives

open Read (Survives isTruncation truncated)

theorem read_magic_survives : Survives isTruncation missing readMagic := by
  refine Read.bind_survives Read.position_survives fun start => ?_
  refine Read.bind_survives (Read.bytes_survives truncated 4) fun found => ?_
  split
  · exact Read.pure_degrades rfl
  · split
    · exact Read.pure_degrades rfl
    · exact Read.throw_degrades _ _

theorem read_preamble_survives : Survives isTruncation missing readPreamble := by
  refine Read.bind_survives Read.position_survives fun start => ?_
  refine Read.bind_survives read_magic_survives fun order => ?_
  refine Read.bind_survives (Read.with_order_survives order) fun _ => ?_
  refine Read.bind_survives (Read.u32_survives truncated) fun tag => ?_
  refine Read.bind_survives (Read.of_except_survives _) fun version => ?_
  refine Read.bind_survives (Read.u32_survives truncated) fun count => ?_
  refine Read.bind_survives (Read.u32_survives truncated) fun size => ?_
  refine Read.bind_survives Read.position_survives fun tableOffset => ?_
  refine Read.bind_survives (Read.bytes_survives truncated _) fun table => ?_
  refine Read.bind_survives (Read.of_except_survives _) fun names => ?_
  exact Read.bind_survives (Read.align_survives truncated 8) fun _ => Read.pure_degrades rfl

theorem read_record_head_survives : Survives isTruncation missing readRecordHead := by
  refine Read.bind_survives Read.position_survives fun offset => ?_
  refine Read.bind_survives (Read.uleb_text_survives truncated) fun name => ?_
  refine Read.bind_survives (Read.u64_survives truncated) fun hash => ?_
  exact Read.bind_survives (Read.u32_survives truncated) fun size => Read.pure_degrades rfl

theorem read_padding_survives (layout : MappingLayout) :
    Survives isTruncation missing (readPadding layout) := by
  rw [readPadding]
  split
  · exact Read.align_survives truncated 8
  · exact Read.pure_degrades rfl

theorem read_record_survives (layout : MappingLayout) :
    Survives isTruncation missing (readRecord layout) := by
  rw [read_record_eq]
  refine Read.bind_survives read_record_head_survives fun head => ?_
  have each : ∀ order, Survives isTruncation missing (Read.bytes head.size.toNat >>= fun data =>
      readPadding layout >>= fun _ =>
        pure (Record.mk head.offset head.name head.hash (.ofBytes data order))) := fun order =>
    Read.bind_survives (Read.bytes_survives truncated _) fun data =>
      Read.bind_survives (read_padding_survives layout) fun _ => Read.pure_degrades rfl
  exact Read.order_survives each

end Survives

variable {cursor short after : Cursor} (shortened : Cursor.Shortened missing cursor short)
  (cut : short.data.length < after.offset)

include shortened cut

theorem records_cut (preamble : Preamble) (n : Nat) (entries : List (Except Failure FunctionMapping))
    (ran : times n (readEntry preamble) cursor = .ok entries after) : ∃ count failure,
      records preamble n short = ⟨entries.take count, .error failure⟩ ∧
        failure.kind = .truncatedInput := by
  induction n generalizing cursor short entries with
  | zero =>
      obtain ⟨-, rfl⟩ := (Read.pure_ran_iff _ _).mp ran
      have within := short.offset_le
      rw [shortened.offset] at within
      omega
  | succ n ih =>
      obtain ⟨first, middle, others, firstRan, othersRan, rfl⟩ :=
        (Read.times_succ_ran_iff _ _ _).mp ran
      obtain ⟨record, recordRan, rfl⟩ := Read.map_ran firstRan
      rw [records]
      -- The cut falls into this record or into one behind it.
      obtain ⟨failure, left, failed, kind⟩ | ⟨_, shortMiddle, shortRan, rfl, shortenedOn⟩ :=
        read_record_survives preamble.version.mappingLayout cursor short shortened record middle recordRan
      · rw [failed]
        exact ⟨0, failure, rfl, kind⟩
      · have sameData := shortened.same_data shortenedOn (read_record_ran _ _ _ _ recordRan).1
        obtain ⟨count, failure, stopped, kind⟩ :=
          ih shortenedOn (sameData ▸ cut) others othersRan
        rw [shortRan]
        dsimp only
        rw [stopped]
        exact ⟨count + 1, failure, rfl, kind⟩

theorem transcript_cut (entries : List (Except Failure FunctionMapping))
    (ended : transcript cursor = ⟨entries, .ok after⟩) : ∃ count failure,
      transcript short = ⟨entries.take count, .error failure⟩ ∧ failure.kind = .truncatedInput := by
  obtain ⟨preamble, first, preambleRan, listing⟩ :=
    transcript_ended (congrArg Transcript.outcome ended)
  rw [listing] at ended
  have entriesRan := (records_ran_iff _ _ _ _ _).mp ended
  rw [transcript]
  obtain ⟨failure, left, failed, kind⟩ | ⟨_, shortFirst, shortRan, rfl, shortenedOn⟩ :=
    read_preamble_survives cursor short shortened preamble first preambleRan
  · rw [failed]
    exact ⟨0, failure, rfl, kind⟩
  · have sameData := shortened.same_data shortenedOn (read_preamble_local.onward preambleRan).1
    rw [shortRan]
    exact records_cut shortenedOn (sameData ▸ cut) preamble _ entries entriesRan

omit shortened cut

theorem cut_not_zeros {data cut : Bytes} {entries : List (Except Failure FunctionMapping)} {last : Cursor}
    (ended : transcript (Cursor.little data) = ⟨entries, .ok last⟩) (beginning : cut <+: data)
    (some : cut ≠ []) : cut.all (· == 0) = false := by
  obtain ⟨missing, rfl⟩ := beginning
  obtain ⟨byte, rest, rfl⟩ := List.exists_cons_of_ne_nil some
  -- The first byte is one of the magic, which does not start with zero in either byte order.
  have start : byte ≠ 0 := by
    rintro rfl
    obtain ⟨_, _, preambleRan, -⟩ := transcript_ended (congrArg Transcript.outcome ended)
    obtain ⟨order, taken⟩ := read_preamble_magic preambleRan
    have head := congrArg List.head? taken
    cases order <;> cases head
  rw [List.all_cons, beq_false_of_ne start, Bool.false_and]

end Section

namespace Mappings

theorem cut_section_refused (policy : Policy) (data cut : Bytes) (mappings : Mappings)
    (single : Section.IsSingle data) (parsed : parse .strict data = .ok mappings)
    (beginning : cut <+: data) (some : cut ≠ []) (shorter : cut.length < data.length) :
    ∃ failure, parse policy cut = .error failure ∧ failure.kind = .truncatedInput := by
  obtain ⟨entries, last, ran, nothing⟩ := (Section.single_iff data).mp single
  obtain ⟨rfl, -⟩ := Section.single_entries data mappings entries last ran nothing parsed
  obtain ⟨aligned, alignRan, ended⟩ := Section.read_section_ran_iff.mp ran
  cases (Read.align_in_place rfl).symm.trans alignRan
  have notZeros : (Cursor.little cut).rest.all (· == 0) = false :=
    Section.cut_not_zeros ended beginning some
  -- The last record ends with the data, so that the cut comes before its end.
  have missed : cut.length < last.offset := by
    have left := last.remaining_eq
    rw [Cursor.remaining, nothing, (Section.read_section_local.onward ran).1] at left
    exact Nat.lt_of_lt_of_le shorter (Nat.sub_eq_zero_iff_le.mp left.symm)
  obtain ⟨missing, rfl⟩ := beginning
  obtain ⟨count, failure, stopped, kind⟩ :=
    Section.transcript_cut (Cursor.shortened_little cut missing) missed _ ended
  have start : Read.align 8 (Cursor.little cut) = .ok () (Cursor.little cut) := Read.align_in_place rfl
  obtain ⟨fuel, length⟩ := Nat.exists_eq_succ_of_ne_zero (Nat.ne_of_gt (List.length_pos_iff.mpr some))
  have whole : transcript cut = ⟨(mappings.functions.take count).map .ok, .error failure⟩ := by
    rw [transcript, length, Section.sections, notZeros, if_neg Bool.false_ne_true, start]
    dsimp only
    rw [stopped, List.map_take]
    rfl
  refine ⟨failure, ?_, kind⟩
  rw [parse, whole, Transcript.settle_stopped]
  rfl

/-- Two functions, the second of which has one file and ends in six bytes of padding. -/
def paddedSection : Bytes :=
  Section.magic .little ++ [14, 0, 0, 0, 2, 0, 0, 0, 5, 0, 0, 0, 1, 2, 0, 1, 97, 0, 0, 0] ++
    [1, 102, 7, 0, 0, 0, 0, 0, 0, 0, 2, 0, 0, 0, 0, 0] ++
    [1, 103, 9, 0, 0, 0, 0, 0, 0, 0, 4, 0, 0, 0, 1, 0, 0, 0, 0, 0, 0, 0, 0, 0]

theorem cut_section_refused_padded : Section.IsSingle paddedSection ∧
    ∃ mappings, parse .strict paddedSection = .ok mappings ∧ mappings.functions.length = 2 ∧
      (∃ failure, parse .strict (paddedSection.take 41) = .error failure ∧
        failure.kind = .truncatedInput) ∧
      ∃ failure, parse .bestEffort (paddedSection.take 63) = .error failure ∧
        failure.kind = .truncatedInput := by
  have single : Section.IsSingle paddedSection := by decide +kernel
  have read : (parse .strict paddedSection).map (·.functions.length) = .ok 2 := by decide +kernel
  obtain ⟨mappings, parsed, count⟩ := (map_ok_iff _ _ _).mp read
  have strict := cut_section_refused .strict paddedSection (paddedSection.take 41) mappings single parsed
    (List.take_prefix _ _) (by decide) (by decide)
  have bestEffort := cut_section_refused .bestEffort paddedSection (paddedSection.take 63) mappings
    single parsed (List.take_prefix _ _) (by decide) (by decide)
  exact ⟨single, mappings, parsed, count, strict, bestEffort⟩

end Mappings

end ExecCounts
