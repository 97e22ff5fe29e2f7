import ExecCounts.Proofs.Mapping.Sections
import ExecCounts.Proofs.Relocated

set_option autoImplicit false

namespace ExecCounts

namespace Section

section Moved

variable {distance : Nat} {orders : ByteOrder → ByteOrder → Prop}

theorem read_magic_portable : Read.Portable distance orders readMagic := by
  refine Read.bind_follows Read.position_follows fun start moved placed => ?_
  refine Read.bind_follows_same (Read.bytes_portable 4) fun found => ?_
  split
  · exact Read.pure_follows rfl
  · split
    · exact Read.pure_follows rfl
    · exact Read.throw_follows (by rw [placed]; rfl)

def Record.further (distance : Nat) (record : Record) : Record :=
  { record with offset := record.offset + distance }

def RecordHead.further (distance : Nat) (head : RecordHead) : RecordHead :=
  { head with offset := head.offset + distance }

theorem read_record_head_follows : Read.Follows distance Eq Eq readRecordHead readRecordHead
    fun head moved => moved = head.further distance := by
  refine Read.bind_follows Read.position_follows fun offset moved placed => ?_
  refine Read.bind_follows_same Read.uleb_text_portable fun name => ?_
  refine Read.bind_follows_same Read.u64_portable fun hash => ?_
  refine Read.bind_follows_same Read.u32_portable fun size => ?_
  exact Read.pure_follows (by rw [placed]; rfl)

theorem decode_record_follows (preamble : Preamble) (record : Record) :
    Further distance Eq (decodeRecord preamble record)
      (decodeRecord preamble (record.further distance)) := by
  rw [decodeRecord, decodeRecord, Record.further]
  cases record.body.read (readFunction preamble.version.mappingLayout preamble.filenames) with
  | ok found => exact .ok rfl
  | error failure =>
      exact .error ((failure.inFunction ⟨record.name, record.hash⟩).atOffset record.offset)

variable (aligned : distance % 8 = 0)

include aligned

theorem read_preamble_follows : Read.Follows distance orders Eq readPreamble readPreamble Eq := by
  refine Read.bind_follows Read.position_follows fun start moved placed => ?_
  refine Read.bind_follows_same read_magic_portable fun order => ?_
  -- The section tells its byte order itself, so that both sides go on in the same one.
  refine Read.bind_follows_same (Read.with_order_follows order) fun _ => ?_
  refine Read.bind_follows_same Read.u32_portable fun tag => ?_
  refine Read.bind_follows (Read.placed_follows _ (by rw [placed]; exact Nat.add_right_comm _ _ _)) ?_
  rintro version _ rfl
  refine Read.bind_follows_same Read.u32_portable fun count => ?_
  refine Read.bind_follows_same Read.u32_portable fun size => ?_
  refine Read.bind_follows Read.position_follows fun tableOffset tableMoved tablePlaced => ?_
  refine Read.bind_follows_same (Read.bytes_portable _) fun table => ?_
  refine Read.bind_follows (Read.placed_follows _ tablePlaced) ?_
  rintro names _ rfl
  refine Read.bind_follows_same (Read.align_portable 8 aligned) fun _ => ?_
  exact Read.pure_follows rfl

theorem read_padding_portable (layout : MappingLayout) :
    Read.Portable distance orders (readPadding layout) := by
  rw [readPadding]
  split
  · exact Read.align_portable 8 aligned
  · exact Read.pure_follows rfl

theorem read_record_follows (layout : MappingLayout) :
    Read.Follows distance Eq Eq (readRecord layout) (readRecord layout)
      fun record moved => moved = record.further distance := by
  rw [read_record_eq]
  refine Read.bind_follows read_record_head_follows ?_
  rintro head _ rfl
  refine Read.bind_follows Read.get_follows fun cursor shifted relocated => ?_
  refine Read.bind_follows_same (Read.bytes_portable _) fun data => ?_
  refine Read.bind_follows_same (read_padding_portable aligned layout) fun _ => ?_
  exact Read.pure_follows (by rw [← relocated.order]; rfl)

theorem records_follow (preamble : Preamble) (n : Nat) (cursor shifted : Cursor)
    (relocated : cursor.Relocated distance Eq shifted) :
    (records preamble n cursor).Follows distance (Cursor.Relocated distance Eq)
      (records preamble n shifted) := by
  induction n generalizing cursor shifted with
  | zero => exact Transcript.done_follows relocated
  | succ n ih =>
      rw [records, records]
      obtain ⟨failure, left, leftShifted, failed, failedShifted⟩ |
        ⟨record, rest, _, restShifted, ran, ranShifted, rfl, onward⟩ :=
        read_record_follows aligned preamble.version.mappingLayout cursor shifted relocated
      · rw [failed, failedShifted]
        exact Transcript.stop_follows failure
      · rw [ran, ranShifted]
        exact Transcript.cons_follows (decode_record_follows preamble record)
          (ih rest restShifted onward)

theorem transcript_follows (cursor shifted : Cursor)
    (relocated : cursor.Relocated distance orders shifted) :
    (transcript cursor).Follows distance (Cursor.Relocated distance Eq) (transcript shifted) := by
  rw [transcript, transcript]
  obtain ⟨failure, left, leftShifted, failed, failedShifted⟩ |
    ⟨preamble, rest, _, restShifted, ran, ranShifted, rfl, onward⟩ :=
    read_preamble_follows aligned cursor shifted relocated
  · rw [failed, failedShifted]
    exact Transcript.stop_follows failure
  · rw [ran, ranShifted]
    exact records_follow aligned preamble _ rest restShifted onward

end Moved

theorem transcript_shrinks {cursor last : Cursor}
    (ended : (transcript cursor).outcome = .ok last) : last.remaining < cursor.remaining := by
  obtain ⟨preamble, first, preambleRan, listing⟩ := transcript_ended ended
  rw [listing] at ended
  obtain ⟨-, -, sameData, -, placed⟩ := read_preamble_ran _ _ _ preambleRan
  have entriesRan := (records_ran_iff preamble preamble.recordCount first last
    (records preamble preamble.recordCount first).entries).mp (by rw [← ended])
  obtain ⟨lastData, further⟩ := (Read.times_local (read_entry_local preamble) _).onward entriesRan
  have within := first.offset_le
  have upward := le_align_up_eight (cursor.offset + 16 + (storedOrder cursor.data
    cursor.offset).numberAt cursor.data (cursor.offset + 12) 4)
  rw [Cursor.remaining_eq, Cursor.remaining_eq, lastData, sameData]
  rw [sameData] at within
  omega

theorem section_shrinks {cursor aligned last : Cursor} (alignRan : Read.align 8 cursor = .ok () aligned)
    (ended : (transcript aligned).outcome = .ok last) : last.remaining < cursor.remaining := by
  have fewer := transcript_shrinks ended
  have moved := Read.align_ran alignRan
  rw [aligned.remaining_eq, moved.data, moved.offset] at fewer
  rw [cursor.remaining_eq]
  omega

theorem sections_zeros (fuel : Nat) {cursor : Cursor} (zeros : cursor.rest.all (· == 0) = true) :
    sections fuel cursor = .done () := by
  cases fuel with
  | zero => rfl
  | succ fuel => rw [sections, if_pos zeros]

theorem sections_follow {distance : Nat} {orders : ByteOrder → ByteOrder → Prop}
    (aligned : distance % 8 = 0) (fuel more : Nat) (cursor shifted : Cursor)
    (enough : cursor.remaining ≤ fuel) (enoughShifted : cursor.remaining ≤ more)
    (relocated : cursor.Relocated distance orders shifted) :
    (sections fuel cursor).Follows distance Eq (sections more shifted) := by
  induction fuel generalizing orders more cursor shifted with
  | zero =>
      have nothing : cursor.rest = [] := List.eq_nil_of_length_eq_zero (Nat.le_zero.mp enough)
      have zeros : shifted.rest.all (· == 0) = true := by rw [relocated.rest, nothing]; rfl
      rw [sections_zeros more zeros]
      exact Transcript.done_follows rfl
  | succ fuel ih =>
      by_cases zeros : cursor.rest.all (· == 0) = true
      · rw [sections_zeros _ zeros, sections_zeros _ (relocated.rest ▸ zeros)]
        exact Transcript.done_follows rfl
      · cases more with
        | zero =>
            have nothing := List.eq_nil_of_length_eq_zero (Nat.le_zero.mp enoughShifted)
            exact absurd (by rw [nothing]; rfl) zeros
        | succ more =>
            rw [sections, sections, if_neg zeros, if_neg (by rwa [relocated.rest])]
            obtain ⟨failure, left, leftShifted, failed, failedShifted⟩ |
              ⟨_, start, _, startShifted, ran, ranShifted, -, onward⟩ :=
              Read.align_portable 8 aligned cursor shifted relocated
            · rw [failed, failedShifted]
              exact Transcript.stop_follows failure
            · rw [ran, ranShifted]
              refine Transcript.and_then_follows (transcript_follows aligned start startShifted onward)
                fun last lastShifted ended behind => ?_
              -- A section takes some bytes, so that there is fuel for the others on both sides.
              have fewer := section_shrinks ran ended
              exact ih more last lastShifted (by omega) (by omega) behind

def IsSingle (data : Bytes) : Prop :=
  (transcript (Cursor.little data)).outcome.map Cursor.rest = .ok []

instance (data : Bytes) : Decidable (IsSingle data) := inferInstanceAs (Decidable (_ = _))

theorem single_iff (data : Bytes) : IsSingle data ↔
    ∃ entries last, readSection (Cursor.little data) = .ok entries last ∧ last.rest = [] := by
  have inPlace : Read.align 8 (Cursor.little data) = .ok () (Cursor.little data) :=
    Read.align_in_place rfl
  constructor
  · intro single
    obtain ⟨last, ended, nothing⟩ := (map_ok_iff _ _ _).mp single
    exact ⟨_, last, read_section_ran_iff.mpr ⟨_, inPlace, by rw [← ended]⟩, nothing⟩
  · rintro ⟨entries, last, ran, nothing⟩
    obtain ⟨aligned, alignRan, ended⟩ := read_section_ran_iff.mp ran
    cases inPlace.symm.trans alignRan
    exact (map_ok_iff _ _ _).mpr ⟨last, congrArg Transcript.outcome ended, nothing⟩

theorem sections_past_padding (fuel : Nat) {cursor aligned : Cursor}
    (ran : Read.align 8 cursor = .ok () aligned)
    (zeros : cursor.rest.all (· == 0) = aligned.rest.all (· == 0)) :
    sections fuel cursor = sections fuel aligned := by
  have inPlace : aligned.offset % 8 = 0 := by
    rw [(Read.align_eight_ran ran).2.2, align_up_eight]
    omega
  cases fuel with
  | zero => rfl
  | succ fuel => rw [sections, sections, zeros, ran, Read.align_in_place inPlace]

theorem sections_ahead (first second : Bytes) (entries : List (Except Failure FunctionMapping))
    (last : Cursor) (ran : readSection (Cursor.little first) = .ok entries last)
    (nothing : last.rest = []) (fuel : Nat) : ∃ shifted : Cursor,
      (Cursor.little second).Relocated (first.padTo 8).length (fun _ _ => True) shifted ∧
        sections (fuel + 1) (Cursor.little (first.padTo 8 ++ second)) =
          ⟨entries ++ (sections fuel shifted).entries, (sections fuel shifted).outcome⟩ := by
  obtain ⟨taken, others, split, data, moved, settled⟩ :=
    read_section_local (Cursor.little first) entries last ran
  have none : others = [] := by
    rw [← Read.rest_after _ last taken split data moved, nothing]
  rw [none, List.append_nil] at split
  change first = taken at split
  subst split
  let zeros := Bytes.zeros ((8 - first.length % 8) % 8)
  have joined : first.padTo 8 ++ second = first ++ (zeros ++ second) := by
    rw [pad_to_eq, List.append_assoc]
  rw [joined]
  obtain ⟨left, leftRan, leftData, -, leftOffset⟩ :=
    settled (Cursor.little (first ++ (zeros ++ second))) (zeros ++ second) rfl rfl rfl
  have leftRest := Read.rest_after (Cursor.little (first ++ (zeros ++ second))) left first rfl
    leftData (leftOffset.trans moved)
  obtain ⟨shifted, alignRan, shiftedData, -, shiftedOffset⟩ :=
    Read.padding_yields left.order second 0 first.length rfl left rfl (leftOffset.trans moved)
      leftRest
  have shiftedRest := Read.rest_after left shifted zeros leftRest shiftedData
    (by rw [shiftedOffset, leftOffset, moved]; rfl)
  refine ⟨shifted, ⟨shiftedRest, ?_, trivial⟩, ?_⟩
  · rw [shiftedOffset, pad_to_eq, List.length_append, Nat.zero_add]
    exact (Nat.zero_add _).symm
  · have skipped : zeros.all (· == 0) = true := List.all_eq_true.mpr fun byte member => by
      rw [List.eq_of_mem_replicate member]
      rfl
    rw [sections_step leftRan, sections_past_padding fuel alignRan
      (by rw [leftRest, shiftedRest, List.all_append, skipped, Bool.true_and])]

theorem single_entries (data : Bytes) (mappings : Mappings)
    (entries : List (Except Failure FunctionMapping)) (last : Cursor)
    (ran : readSection (Cursor.little data) = .ok entries last) (nothing : last.rest = [])
    (parsed : Mappings.parse .strict data = .ok mappings) :
    entries = mappings.functions.map .ok ∧ 0 < data.length := by
  have some : 0 < data.length := by
    obtain ⟨preamble, first, openingRan, -⟩ := (Read.bind_ran_iff _ _ _).mp ran
    have notZeros := read_opening_not_zeros openingRan
    apply List.length_pos_iff.mpr
    rintro rfl
    cases notZeros
  obtain ⟨fuel, length⟩ := Nat.exists_eq_succ_of_ne_zero (Nat.ne_of_gt some)
  have whole : Mappings.transcript data = ⟨entries, .ok ()⟩ := by
    rw [Mappings.transcript, length, sections_step ran, sections_zeros fuel (by rw [nothing]; rfl)]
    exact congrArg (Transcript.mk · _) (List.append_nil entries)
  rw [Mappings.parse, whole, bind_ok_iff] at parsed
  obtain ⟨⟨functions, skipped⟩, settled, same⟩ := parsed
  cases (pure_ok_iff _ _).mp same
  obtain ⟨rfl, left, strict, -⟩ := Transcript.settle_ok_parts .strict _ _ _ settled
  rw [strict rfl] at left
  exact ⟨Transcript.entries_of_failures_nil entries _ (List.map_eq_nil_iff.mp left.symm), some⟩

end Section

namespace Mappings

/-- Behind a padded section, a buffer is read as it is on its own. The functions of the section come
first, and what is wrong in the buffer is found further on. -/
theorem parse_behind_section (policy : Policy) (first second : Bytes) (mappings : Mappings)
    (single : Section.IsSingle first) (parsed : parse .strict first = .ok mappings) :
    Further (first.padTo 8).length (fun own joined =>
        joined.functions = mappings.functions ++ own.functions ∧
          List.Forall₂ Skipped.Alike own.skipped joined.skipped)
      (parse policy second) (parse policy (first.padTo 8 ++ second)) := by
  obtain ⟨entries, last, ran, nothing⟩ := (Section.single_iff first).mp single
  obtain ⟨rfl, some⟩ := Section.single_entries first mappings entries last ran nothing parsed
  have length := length_pad_to_eight first
  have aligned : (first.padTo 8).length % 8 = 0 := by
    rw [length, alignUp]
    exact Nat.mul_mod_left _ _
  obtain ⟨fuel, succ⟩ := Nat.exists_eq_succ_of_ne_zero
    (Nat.ne_of_gt (Nat.lt_of_lt_of_le some (length ▸ le_align_up_eight first.length)))
  have total : (first.padTo 8 ++ second).length = fuel + second.length + 1 := by
    rw [List.length_append, succ, Nat.succ_add]
  obtain ⟨shifted, relocated, joined⟩ :=
    Section.sections_ahead first second _ last ran nothing (fuel + second.length)
  have follows := Section.sections_follow aligned second.length (fuel + second.length) _ shifted
    (Nat.le_refl _) (Nat.le_add_left _ _) relocated
  have settled := Transcript.settle_follows policy follows
  rw [parse, parse, transcript, transcript, total, joined, Transcript.settle_append_ok]
  generalize Transcript.settle policy _ = own at settled ⊢
  generalize Transcript.settle policy _ = moved at settled ⊢
  cases settled with
  | error failure => exact .error failure
  | ok same => exact .ok ⟨congrArg (mappings.functions ++ ·) same.1, same.2⟩

/-- A big-endian section that ends behind its last record. -/
def unpaddedSection : Bytes :=
  Section.magic .big ++ [0, 0, 0, 11, 0, 0, 0, 1, 0, 0, 0, 1, 0, 0, 0, 0, 0, 0, 0, 0] ++
    [2, 103, 104, 0, 0, 0, 0, 0, 0, 0, 9, 0, 0, 0, 2, 0, 0]

/-- Two functions, the data of the second of which names a missing file, and zeros at the end. -/
def halfReadable : Bytes :=
  Section.magic .little ++ [14, 0, 0, 0, 2, 0, 0, 0, 3, 0, 0, 0, 0, 0, 0, 0, 0, 0, 0, 0] ++
    [1, 102, 7, 0, 0, 0, 0, 0, 0, 0, 2, 0, 0, 0, 0, 0] ++
    [1, 103, 8, 0, 0, 0, 0, 0, 0, 0, 2, 0, 0, 0, 1, 4] ++ Bytes.zeros 8

theorem parse_behind_section_half : Section.IsSingle unpaddedSection ∧
    ∃ mappings own joined, parse .strict unpaddedSection = .ok mappings ∧
      mappings.functions.length = 1 ∧ parse .bestEffort halfReadable = .ok own ∧
      own.functions.length = 1 ∧ own.skipped.length = 1 ∧
      parse .bestEffort (unpaddedSection.padTo 8 ++ halfReadable) = .ok joined ∧
      joined.functions = mappings.functions ++ own.functions ∧
      List.Forall₂ Skipped.Alike own.skipped joined.skipped := by
  have single : Section.IsSingle unpaddedSection := by decide +kernel
  have firstRead : (parse .strict unpaddedSection).map (·.functions.length) = .ok 1 := by
    decide +kernel
  have ownRead : (parse .bestEffort halfReadable).map
      (fun own => (own.functions.length, own.skipped.length)) = .ok (1, 1) := by
    decide +kernel
  obtain ⟨mappings, parsed, count⟩ := (map_ok_iff _ _ _).mp firstRead
  obtain ⟨own, ownParsed, counts⟩ := (map_ok_iff _ _ _).mp ownRead
  obtain ⟨read, skipped⟩ := Prod.mk.inj counts
  have further := parse_behind_section .bestEffort unpaddedSection halfReadable mappings single parsed
  rw [ownParsed] at further
  generalize parse .bestEffort (unpaddedSection.padTo 8 ++ halfReadable) = joined at further ⊢
  cases further with
  | ok same =>
      exact ⟨single, mappings, own, _, parsed, count, ownParsed, read, skipped, rfl, same.1, same.2⟩

end Mappings

end ExecCounts
