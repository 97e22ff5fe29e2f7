import ExecCounts.Proofs.Local
import ExecCounts.Proofs.Mapping.Declared

set_option autoImplicit false

namespace ExecCounts

namespace Section

section Local

theorem read_magic_local : Read.Local readMagic := by
  refine Read.bind_local Read.position_local fun start => ?_
  refine Read.bind_local (Read.bytes_local 4) fun found => ?_
  split
  · exact Read.pure_local _
  · split
    · exact Read.pure_local _
    · exact Read.throw_local _

theorem read_preamble_local : Read.Local readPreamble := by
  refine Read.bind_local Read.position_local fun start => ?_
  refine Read.bind_local read_magic_local fun order => ?_
  refine Read.bind_local (Read.with_order_local order) fun _ => ?_
  refine Read.bind_local Read.u32_local fun tag => ?_
  refine Read.bind_local (Read.of_except_local _) fun version => ?_
  refine Read.bind_local Read.u32_local fun count => ?_
  refine Read.bind_local Read.u32_local fun size => ?_
  refine Read.bind_local Read.position_local fun tableOffset => ?_
  refine Read.bind_local (Read.bytes_local _) fun table => ?_
  refine Read.bind_local (Read.of_except_local _) fun names => ?_
  exact Read.bind_local (Read.align_local 8) fun _ => Read.pure_local _

theorem read_record_head_local : Read.Local readRecordHead := by
  refine Read.bind_local Read.position_local fun offset => ?_
  refine Read.bind_local Read.uleb_text_local fun name => ?_
  refine Read.bind_local Read.u64_local fun hash => ?_
  exact Read.bind_local Read.u32_local fun size => Read.pure_local _

theorem read_padding_local (layout : MappingLayout) : Read.Local (readPadding layout) := by
  rw [readPadding]
  split
  · exact Read.align_local 8
  · exact Read.pure_local ()

theorem read_record_local (layout : MappingLayout) : Read.Local (readRecord layout) := by
  rw [read_record_eq]
  refine Read.bind_local read_record_head_local fun head => ?_
  have each : ∀ order, Read.Local (Read.bytes head.size.toNat >>= fun data =>
      readPadding layout >>= fun _ =>
        pure (Record.mk head.offset head.name head.hash (.ofBytes data order))) := fun order =>
    Read.bind_local (Read.bytes_local _) fun data =>
      Read.bind_local (read_padding_local layout) fun _ => Read.pure_local _
  exact Read.order_local each

end Local

def Carries (id : FunctionId) : Except Failure FunctionMapping → Prop
  | .ok mapping => mapping.id = id
  | .error failure => failure.function = some id

theorem decode_record_carries (preamble : Preamble) (record : Record) :
    Carries ⟨record.name, record.hash⟩ (decodeRecord preamble record) := by
  rw [decodeRecord]
  split <;> exact rfl

def Decodes (place : Place) (entry : Except Failure FunctionMapping) : Prop :=
  ∃ (preamble : Preamble) (record : Record), entry = decodeRecord preamble record ∧
    place.id = ⟨record.name, record.hash⟩ ∧ record.body.data.length = place.size ∧
      place.size < UInt32.size

theorem Decodes.carries {place : Place} {entry : Except Failure FunctionMapping}
    (decodes : Decodes place entry) : Carries place.id entry := by
  obtain ⟨preamble, record, rfl, same, -⟩ := decodes
  rw [same]
  exact decode_record_carries preamble record

def readEntry (preamble : Preamble) : Read (Except Failure FunctionMapping) :=
  decodeRecord preamble <$> readRecord preamble.version.mappingLayout

theorem read_entry_local (preamble : Preamble) : Read.Local (readEntry preamble) :=
  Read.map_local _ (read_record_local _)

section Entry

variable {preamble : Preamble} {cursor after : Cursor} {entry : Except Failure FunctionMapping}

theorem read_entry_moved (ran : readEntry preamble cursor = .ok entry after) :
    after.data = cursor.data ∧ after.order = cursor.order ∧ after.offset =
      recordEnd preamble.version.mappingLayout cursor.order cursor.data cursor.offset := by
  obtain ⟨record, recordRan, -⟩ := Read.map_ran ran
  exact read_record_ran _ _ _ _ recordRan

theorem read_entry_ran (ran : readEntry preamble cursor = .ok entry after) : ∃ place,
    placeAt? cursor.order cursor.data cursor.offset = some place ∧ Decodes place entry ∧
      cursor.offset ≤ place.start ∧ place.start + place.size ≤ after.offset := by
  have ended := (read_entry_moved ran).2.2
  obtain ⟨record, recordRan, rfl⟩ := Read.map_ran ran
  obtain ⟨head, first, body, second, headRan, bodyRan, -, rfl⟩ :=
    (read_record_ran_iff _ _ _ _).mp recordRan
  obtain ⟨-, -, behind, found⟩ := read_record_head_ran _ _ _ headRan
  refine ⟨_, found, ⟨preamble, _, rfl, rfl, (Read.bytes_ran bodyRan).2.1, head.size.toNat_lt_size⟩,
    behind, ?_⟩
  rw [ended, record_end_eq _ _ _ _ _ found]
  split
  · exact le_align_up_eight _
  · exact Nat.le_refl _

end Entry

section Entries

variable (preamble : Preamble)

theorem records_ran_iff (n : Nat) (cursor after : Cursor)
    (entries : List (Except Failure FunctionMapping)) :
    records preamble n cursor = ⟨entries, .ok after⟩ ↔
      times n (readEntry preamble) cursor = .ok entries after := by
  induction n generalizing cursor entries with
  | zero =>
      rw [records, times, Read.pure_ran_iff, Transcript.done, Transcript.mk.injEq, Except.ok.injEq]
  | succ n ih =>
      rw [records, Read.times_succ_ran_iff]
      constructor
      · intro ended
        cases recordRan : readRecord preamble.version.mappingLayout cursor with
        | error failure left =>
            rw [recordRan] at ended
            cases ended
        | ok record rest =>
            rw [recordRan] at ended
            obtain ⟨rfl, outcome⟩ := (Transcript.mk.injEq _ _ _ _).mp ended
            refine ⟨decodeRecord preamble record, rest, _, ?_, (ih rest _).mp ?_, rfl⟩
            · rw [readEntry, map_eq_pure_bind, run_bind_of_ok recordRan]
              rfl
            · rw [← outcome]
      · rintro ⟨first, middle, rest, firstRan, restRan, rfl⟩
        obtain ⟨record, recordRan, rfl⟩ := Read.map_ran firstRan
        rw [recordRan]
        exact congrArg (Transcript.cons _) ((ih middle rest).mpr restRan)

abbrev placesAt (n : Nat) (cursor : Cursor) : List Place :=
  placesFrom preamble.version.mappingLayout cursor.order cursor.data n cursor.offset

variable {preamble}

theorem places_at_succ (n : Nat) {cursor after : Cursor} {entry : Except Failure FunctionMapping}
    (ran : readEntry preamble cursor = .ok entry after) (place : Place)
    (found : placeAt? cursor.order cursor.data cursor.offset = some place) :
    placesAt preamble (n + 1) cursor = place :: placesAt preamble n after := by
  obtain ⟨data, order, offset⟩ := read_entry_moved ran
  rw [placesAt, placesFrom, found, placesAt, data, order, offset]
  rfl

theorem entries_placed (n : Nat) (cursor after : Cursor)
    (entries : List (Except Failure FunctionMapping))
    (ran : times n (readEntry preamble) cursor = .ok entries after) :
    cursor.offset ≤ after.offset ∧ List.Forall₂ (fun place entry => Decodes place entry ∧
      cursor.offset ≤ place.start ∧ place.start + place.size ≤ after.offset)
        (placesAt preamble n cursor) entries := by
  induction n generalizing cursor entries with
  | zero =>
      obtain ⟨rfl, rfl⟩ := (Read.pure_ran_iff _ _).mp ran
      exact ⟨Nat.le_refl _, .nil⟩
  | succ n ih =>
      obtain ⟨first, middle, rest, firstRan, restRan, rfl⟩ :=
        (Read.times_succ_ran_iff _ _ _).mp ran
      obtain ⟨place, found, decodes, behind, within⟩ := read_entry_ran firstRan
      obtain ⟨onward, others⟩ := ih middle rest restRan
      rw [places_at_succ n firstRan place found]
      refine ⟨by omega, .cons ⟨decodes, behind, by omega⟩ (others.imp ?_)⟩
      rintro other entry ⟨own, start, stop⟩
      exact ⟨own, by omega, stop⟩

end Entries

section Sections

def readOpening : Read Preamble := Read.align 8 >>= fun _ => readPreamble

def readSection : Read (List (Except Failure FunctionMapping)) :=
  readOpening >>= fun preamble => times preamble.recordCount (readEntry preamble)

theorem read_opening_local : Read.Local readOpening :=
  Read.bind_local (Read.align_local 8) fun _ => read_preamble_local

theorem read_section_local : Read.Local readSection :=
  Read.bind_local read_opening_local fun preamble =>
    Read.times_local (read_entry_local preamble) preamble.recordCount

variable {cursor after last : Cursor} {preamble : Preamble}
  {entries : List (Except Failure FunctionMapping)}

theorem read_magic_taken {order : ByteOrder} (ran : readMagic cursor = .ok order after) :
    cursor.rest.take 4 = magic order := by
  obtain ⟨start, first, positionRan, rest⟩ := (Read.bind_ran_iff _ _ _).mp ran
  rw [(Read.position_ran positionRan).2] at rest
  obtain ⟨found, second, bytesRan, rest⟩ := (Read.bind_ran_iff _ _ _).mp rest
  rw [cursor.rest_eq, ← (Read.bytes_ran bytesRan).1]
  split at rest
  · rename_i little
    obtain ⟨rfl, -⟩ := (Read.pure_ran_iff _ _).mp rest
    exact little
  · split at rest
    · rename_i big
      obtain ⟨rfl, -⟩ := (Read.pure_ran_iff _ _).mp rest
      exact big
    · cases rest

theorem read_preamble_magic (ran : readPreamble cursor = .ok preamble after) :
    ∃ order, cursor.rest.take 4 = magic order := by
  obtain ⟨start, first, positionRan, rest⟩ := (Read.bind_ran_iff _ _ _).mp ran
  rw [(Read.position_ran positionRan).2] at rest
  obtain ⟨order, second, magicRan, -⟩ := (Read.bind_ran_iff _ _ _).mp rest
  exact ⟨order, read_magic_taken magicRan⟩

theorem not_zeros_of_magic {bytes : Bytes} {order : ByteOrder} (offset : Nat)
    (taken : (bytes.drop offset).take 4 = magic order) : bytes.all (· == 0) = false := by
  by_contra zeros
  rw [Bool.not_eq_false, List.all_eq_true] at zeros
  have all : ∀ byte ∈ magic order, (byte == 0) = true := fun byte member =>
    zeros byte (List.mem_of_mem_drop (List.mem_of_mem_take (taken ▸ member)))
  revert all
  cases order <;> decide

theorem read_opening_not_zeros (ran : readOpening cursor = .ok preamble after) :
    cursor.rest.all (· == 0) = false := by
  obtain ⟨⟨⟩, aligned, alignRan, preambleRan⟩ := (Read.bind_ran_iff _ _ _).mp ran
  obtain ⟨order, taken⟩ := read_preamble_magic preambleRan
  have moved := Read.align_ran alignRan
  rw [aligned.rest_eq, moved.data, moved.offset, ← List.drop_drop, ← cursor.rest_eq] at taken
  exact not_zeros_of_magic _ taken

theorem read_section_ran_iff : readSection cursor = .ok entries last ↔
    ∃ aligned, Read.align 8 cursor = .ok () aligned ∧ transcript aligned = ⟨entries, .ok last⟩ := by
  rw [readSection, readOpening, bind_assoc]
  constructor
  · intro ran
    obtain ⟨⟨⟩, aligned, alignRan, ran⟩ := (Read.bind_ran_iff _ _ _).mp ran
    obtain ⟨preamble, first, preambleRan, entriesRan⟩ := (Read.bind_ran_iff _ _ _).mp ran
    refine ⟨aligned, alignRan, ?_⟩
    rw [transcript, preambleRan]
    exact (records_ran_iff _ _ _ _ _).mpr entriesRan
  · rintro ⟨aligned, alignRan, ended⟩
    obtain ⟨preamble, first, preambleRan, listing⟩ :=
      transcript_ended (congrArg Transcript.outcome ended)
    rw [listing] at ended
    rw [run_bind_of_ok alignRan, run_bind_of_ok preambleRan]
    exact (records_ran_iff _ _ _ _ _).mp ended

theorem sections_step (ran : readSection cursor = .ok entries last) (fuel : Nat) :
    sections (fuel + 1) cursor =
      ⟨entries ++ (sections fuel last).entries, (sections fuel last).outcome⟩ := by
  obtain ⟨preamble, first, openingRan, -⟩ := (Read.bind_ran_iff _ _ _).mp ran
  obtain ⟨aligned, alignRan, ended⟩ := read_section_ran_iff.mp ran
  rw [sections, read_opening_not_zeros openingRan, if_neg Bool.false_ne_true, alignRan]
  dsimp only
  rw [ended]
  rfl

theorem sections_ended (fuel : Nat) (ended : (sections (fuel + 1) cursor).outcome = .ok ()) :
    (cursor.rest.all (· == 0) = true ∧ sections (fuel + 1) cursor = .done ()) ∨
      ∃ entries last, readSection cursor = .ok entries last ∧
        (sections fuel last).outcome = .ok () := by
  rw [sections] at ended ⊢
  by_cases zeros : cursor.rest.all (· == 0)
  · rw [if_pos zeros]
    exact .inl ⟨zeros, rfl⟩
  · rw [if_neg zeros] at ended
    cases alignRan : Read.align 8 cursor with
    | error failure left =>
        rw [alignRan] at ended
        cases ended
    | ok value aligned =>
        rw [alignRan] at ended
        obtain ⟨last, sectionEnded, laterEnded⟩ := (Transcript.and_then_ok_iff _ _ _).mp ended
        exact .inr ⟨(transcript aligned).entries, last,
          read_section_ran_iff.mpr ⟨aligned, alignRan, by rw [← sectionEnded]⟩, laterEnded⟩

theorem section_declared (openingRan : readOpening cursor = .ok preamble after)
    (entriesRan : times preamble.recordCount (readEntry preamble) after = .ok entries last)
    (fuel : Nat) : declaredPlaces cursor.data (fuel + 1) cursor.offset =
      placesAt preamble preamble.recordCount after ++
        declaredPlaces cursor.data fuel last.offset ∧
      after.data = cursor.data ∧ last.data = cursor.data ∧ cursor.offset ≤ after.offset := by
  have some := read_opening_not_zeros openingRan
  obtain ⟨⟨⟩, aligned, alignRan, preambleRan⟩ := (Read.bind_ran_iff _ _ _).mp openingRan
  obtain ⟨alignedData, -, alignedOffset⟩ := Read.align_eight_ran alignRan
  obtain ⟨version, count, sameData, ordered, placed⟩ := read_preamble_ran _ _ _ preambleRan
  obtain ⟨-, lastData, -, lastOffset⟩ :=
    records_accounted preamble preamble.recordCount after last
      (by rw [(records_ran_iff _ _ _ _ _).mpr entriesRan])
  rw [alignedOffset, alignedData] at version count ordered placed
  rw [cursor.rest_eq] at some
  refine ⟨?_, sameData.trans alignedData, lastData.trans (sameData.trans alignedData), ?_⟩
  · rw [declaredPlaces, some, if_neg Bool.false_ne_true]
    dsimp only
    rw [version]
    dsimp only
    rw [placesAt, lastOffset, sameData, alignedData, ordered, placed, count]
  · have upward := le_align_up_eight cursor.offset
    have further := le_align_up_eight (alignUp cursor.offset 8 + 16 + (storedOrder cursor.data
      (alignUp cursor.offset 8)).numberAt cursor.data (alignUp cursor.offset 8 + 12) 4)
    omega

theorem section_placed (ran : readSection cursor = .ok entries last) :
    last.data = cursor.data ∧ ∃ places : List Place,
      (∀ fuel, declaredPlaces cursor.data (fuel + 1) cursor.offset =
        places ++ declaredPlaces cursor.data fuel last.offset) ∧
      List.Forall₂ (fun place entry => Decodes place entry ∧ cursor.offset ≤ place.start ∧
        place.start + place.size ≤ last.offset) places entries := by
  obtain ⟨preamble, first, openingRan, entriesRan⟩ := (Read.bind_ran_iff _ _ _).mp ran
  obtain ⟨-, placed⟩ := entries_placed _ _ _ _ entriesRan
  obtain ⟨-, -, data, onward⟩ := section_declared openingRan entriesRan 0
  refine ⟨data, placesAt preamble preamble.recordCount first, fun fuel => ?_, placed.imp ?_⟩
  · exact (section_declared openingRan entriesRan fuel).1
  · rintro place entry ⟨decodes, behind, within⟩
    exact ⟨decodes, Nat.le_trans onward behind, within⟩

theorem read_section_moves (ran : readSection cursor = .ok entries last) :
    cursor.offset ≤ last.offset := by
  obtain ⟨taken, others, -, -, moved, -⟩ := read_section_local cursor entries last ran
  rw [moved]
  exact Nat.le_add_right _ _

theorem sections_decoded (fuel : Nat) (cursor : Cursor)
    (ended : (sections fuel cursor).outcome = .ok ()) :
    List.Forall₂ (fun place entry => Decodes place entry ∧ cursor.offset ≤ place.start ∧
      place.start + place.size ≤ cursor.data.length)
        (declaredPlaces cursor.data fuel cursor.offset) (sections fuel cursor).entries := by
  induction fuel generalizing cursor with
  | zero => exact .nil
  | succ fuel ih =>
      obtain ⟨zeros, nothing⟩ | ⟨entries, last, ran, laterEnded⟩ := sections_ended fuel ended
      · rw [cursor.rest_eq] at zeros
        rw [nothing, declaredPlaces, if_pos zeros]
        exact .nil
      · obtain ⟨data, places, declared, placed⟩ := section_placed ran
        have later := ih last laterEnded
        rw [data] at later
        have onward := last.offset_le
        rw [data] at onward
        have forward := read_section_moves ran
        rw [sections_step ran, declared]
        refine List.rel_append (placed.imp ?_) (later.imp ?_)
        · rintro place entry ⟨decodes, behind, within⟩
          exact ⟨decodes, behind, Nat.le_trans within onward⟩
        · rintro place entry ⟨decodes, behind, within⟩
          exact ⟨decodes, Nat.le_trans forward behind, within⟩

theorem sections_placed (fuel : Nat) (cursor : Cursor)
    (ended : (sections fuel cursor).outcome = .ok ()) :
    List.Forall₂ (fun place entry => Carries place.id entry ∧ cursor.offset ≤ place.start ∧
      place.start + place.size ≤ cursor.data.length)
        (declaredPlaces cursor.data fuel cursor.offset) (sections fuel cursor).entries :=
  (sections_decoded fuel cursor ended).imp fun _ _ holds => ⟨holds.1.carries, holds.2⟩

end Sections

end Section

end ExecCounts
