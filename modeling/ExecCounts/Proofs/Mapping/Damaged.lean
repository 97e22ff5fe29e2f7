import ExecCounts.Proofs.Damaged
import ExecCounts.Proofs.Mapping.Sections

set_option autoImplicit false

namespace ExecCounts

namespace Section

variable {preamble : Preamble} {cursor other after : Cursor} {entry : Except Failure FunctionMapping}

theorem read_entry_damaged (ran : readEntry preamble cursor = .ok entry after) (place : Place)
    (found : placeAt? cursor.order cursor.data cursor.offset = some place) (patch : Bytes)
    (fits : patch.length = place.size) (damaged : cursor.Damaged place.start patch other) :
    ∃ changed left, readEntry preamble other = .ok changed left ∧ Carries place.id changed ∧
      after.Damaged place.start patch left := by
  obtain ⟨record, recordRan, -⟩ := Read.map_ran ran
  obtain ⟨head, first, body, second, headRan, bodyRan, paddingRan, -⟩ :=
    (read_record_ran_iff _ _ _ _).mp recordRan
  obtain ⟨-, -, -, headFound⟩ := read_record_head_ran _ _ _ headRan
  cases found.symm.trans headFound
  obtain ⟨otherFirst, otherHeadRan, firstDamaged⟩ :=
    read_record_head_local.damaged damaged headRan (.inl (Nat.le_refl _))
  obtain ⟨otherSecond, otherBodyRan, secondDamaged⟩ :=
    Read.bytes_damaged firstDamaged rfl fits bodyRan
  have behind : first.offset + patch.length ≤ second.offset := by
    rw [(Read.bytes_ran bodyRan).2.2.offset, fits]
  obtain ⟨left, otherPaddingRan, leftDamaged⟩ :=
    (read_padding_local _).damaged secondDamaged paddingRan (.inr behind)
  let changed : Record := ⟨head.offset, head.name, head.hash, .ofBytes patch otherFirst.order⟩
  have otherRan : readRecord preamble.version.mappingLayout other = .ok changed left :=
    (read_record_ran_iff _ _ _ _).mpr
      ⟨head, otherFirst, patch, otherSecond, otherHeadRan, otherBodyRan, otherPaddingRan, rfl⟩
  refine ⟨decodeRecord preamble changed, left, ?_, decode_record_carries preamble changed, leftDamaged⟩
  rw [readEntry, map_eq_pure_bind, run_bind_of_ok otherRan]
  rfl

theorem entries_damaged (n : Nat) (cursor other after : Cursor)
    (entries : List (Except Failure FunctionMapping))
    (ran : times n (readEntry preamble) cursor = .ok entries after) (index : Nat) (place : Place)
    (found : (placesAt preamble n cursor)[index]? = some place) (patch : Bytes)
    (fits : patch.length = place.size) (damaged : cursor.Damaged place.start patch other) :
    ∃ changed left, times n (readEntry preamble) other = .ok (entries.set index changed) left ∧
      Carries place.id changed ∧ after.Damaged place.start patch left := by
  induction n generalizing cursor other entries index with
  | zero => cases found
  | succ n ih =>
      obtain ⟨first, middle, rest, firstRan, restRan, rfl⟩ :=
        (Read.times_succ_ran_iff _ _ _).mp ran
      obtain ⟨own, ownFound, -, -, within⟩ := read_entry_ran firstRan
      rw [places_at_succ n firstRan own ownFound] at found
      cases index with
      | zero =>
          -- The damaged record is the next one, and the others are behind the damage.
          cases found
          obtain ⟨changed, between, changedRan, carries, behind⟩ :=
            read_entry_damaged firstRan place ownFound patch fits damaged
          obtain ⟨left, leftRan, leftDamaged⟩ :=
            (Read.times_local (read_entry_local preamble) n).damaged behind restRan
              (.inr (by rw [fits]; exact within))
          exact ⟨changed, left, (Read.times_succ_ran_iff _ _ _).mpr
            ⟨changed, between, rest, changedRan, leftRan, rfl⟩, carries, leftDamaged⟩
      | succ index =>
          -- The next record ends before the damage.
          rw [List.getElem?_cons_succ] at found
          have listed := List.mem_of_getElem? found
          obtain ⟨entry, -, -, behind, -⟩ :=
            forall₂_exists (entries_placed n middle after rest restRan).2 place listed
          obtain ⟨between, betweenRan, betweenDamaged⟩ :=
            (read_entry_local preamble).damaged damaged firstRan (.inl behind)
          obtain ⟨changed, left, leftRan, carries, leftDamaged⟩ :=
            ih middle between rest restRan index found betweenDamaged
          exact ⟨changed, left, (Read.times_succ_ran_iff _ _ _).mpr
            ⟨first, between, _, betweenRan, leftRan, rfl⟩, carries, leftDamaged⟩

theorem sections_behind {start : Nat} {patch : Bytes} (fuel : Nat) (cursor other : Cursor)
    (ended : (sections fuel cursor).outcome = .ok ()) (damaged : cursor.Damaged start patch other)
    (behind : start + patch.length ≤ cursor.offset) : sections fuel other = sections fuel cursor := by
  induction fuel generalizing cursor other with
  | zero => rfl
  | succ fuel ih =>
      obtain ⟨zeros, nothing⟩ | ⟨entries, last, ran, laterEnded⟩ := sections_ended fuel ended
      · rw [nothing, sections, damaged.rest_behind behind, if_pos zeros]
      · have forward := read_section_moves ran
        obtain ⟨left, leftRan, leftDamaged⟩ := read_section_local.damaged damaged ran (.inr behind)
        rw [sections_step ran, sections_step leftRan,
          ih last left laterEnded leftDamaged (Nat.le_trans behind forward)]

theorem sections_damaged (fuel : Nat) (cursor other : Cursor)
    (ended : (sections fuel cursor).outcome = .ok ()) (index : Nat) (place : Place)
    (found : (declaredPlaces cursor.data fuel cursor.offset)[index]? = some place) (patch : Bytes)
    (fits : patch.length = place.size) (damaged : cursor.Damaged place.start patch other) :
    ∃ changed, Carries place.id changed ∧
      sections fuel other = ⟨(sections fuel cursor).entries.set index changed, .ok ()⟩ := by
  induction fuel generalizing cursor other index with
  | zero => cases found
  | succ fuel ih =>
      obtain ⟨zeros, -⟩ | ⟨entries, last, ran, laterEnded⟩ := sections_ended fuel ended
      · rw [cursor.rest_eq] at zeros
        rw [declaredPlaces, if_pos zeros] at found
        cases found
      · obtain ⟨preamble, first, openingRan, entriesRan⟩ := (Read.bind_ran_iff _ _ _).mp ran
        obtain ⟨declared, firstData, lastData, -⟩ := section_declared openingRan entriesRan fuel
        obtain ⟨-, placed⟩ := entries_placed _ _ _ _ entriesRan
        have same := placed.length_eq
        rw [declared] at found
        rw [sections_step ran]
        by_cases own : index < entries.length
        · -- the record is one of this section
          rw [List.getElem?_append_left (by rw [same]; exact own)] at found
          obtain ⟨entry, -, -, behind, within⟩ :=
            forall₂_exists placed place (List.mem_of_getElem? found)
          obtain ⟨between, betweenRan, betweenDamaged⟩ :=
            read_opening_local.damaged damaged openingRan (.inl behind)
          obtain ⟨changed, left, leftRan, carries, leftDamaged⟩ :=
            entries_damaged _ first between last entries entriesRan index place found patch fits
              betweenDamaged
          have changedRan : readSection other = .ok (entries.set index changed) left := by
            rw [readSection, run_bind_of_ok betweenRan, leftRan]
          refine ⟨changed, carries, ?_⟩
          rw [sections_step changedRan, List.set_append_left _ _ own,
            sections_behind fuel last left laterEnded leftDamaged (by rw [fits]; exact within),
            laterEnded]
        · -- the record is in a later section
          rw [List.getElem?_append_right (by rw [same]; exact Nat.le_of_not_lt own), same,
            ← lastData] at found
          obtain ⟨entry, -, -, behind, -⟩ :=
            forall₂_exists (sections_placed fuel last laterEnded) place (List.mem_of_getElem? found)
          obtain ⟨between, betweenRan, betweenDamaged⟩ :=
            read_section_local.damaged damaged ran (.inl behind)
          obtain ⟨changed, carries, later⟩ :=
            ih last between laterEnded (index - entries.length) found betweenDamaged
          refine ⟨changed, carries, ?_⟩
          rw [sections_step betweenRan, List.set_append_right _ _ (Nat.le_of_not_lt own), later]

end Section

namespace Mappings

def ofEntries (entries : List (Except Failure FunctionMapping)) : Mappings where
  functions := Transcript.values ⟨entries, .ok ()⟩
  skipped := (Transcript.failures ⟨entries, .ok ()⟩).map Skipped.ofFailure

theorem parse_best_effort (data : Bytes) (mappings : Mappings) :
    parse .bestEffort data = .ok mappings ↔
      (transcript data).outcome = .ok () ∧ mappings = ofEntries (transcript data).entries := by
  rw [parse, Transcript.settle_best_effort]
  cases (transcript data).outcome with
  | error failure =>
      constructor
      · intro parsed
        cases parsed
      · rintro ⟨ended, -⟩
        cases ended
  | ok last =>
      constructor
      · intro parsed
        cases parsed
        exact ⟨rfl, rfl⟩
      · rintro ⟨-, rfl⟩
        rfl

theorem damage_stays_in_record (data : Bytes) (mappings : Mappings)
    (parsed : parse .bestEffort data = .ok mappings) :
    ∃ entries : List (Except Failure FunctionMapping), mappings = ofEntries entries ∧
      List.Forall₂ (fun place entry => Section.Carries place.id entry)
        (Section.declaredPlaces data data.length 0) entries ∧
      ∀ (index : Nat) (place : Section.Place) (patch : Bytes),
        (Section.declaredPlaces data data.length 0)[index]? = some place →
          patch.length = place.size → ∃ changed, Section.Carries place.id changed ∧
            parse .bestEffort (data.overwrite place.start patch) =
              .ok (ofEntries (entries.set index changed)) := by
  obtain ⟨ended, rfl⟩ := (parse_best_effort data mappings).mp parsed
  have placed := Section.sections_placed data.length (Cursor.little data) ended
  refine ⟨(transcript data).entries, rfl, placed.imp fun _ _ holds => holds.1, ?_⟩
  intro index place patch found fits
  obtain ⟨entry, -, -, -, within⟩ := forall₂_exists placed place (List.mem_of_getElem? found)
  rw [← fits] at within
  have damaged : (Cursor.little data).Damaged place.start patch
      (Cursor.little (data.overwrite place.start patch)) := ⟨within, rfl, rfl, rfl⟩
  obtain ⟨changed, carries, read⟩ :=
    Section.sections_damaged data.length _ _ ended index place found patch fits damaged
  refine ⟨changed, carries, (parse_best_effort _ _).mpr ?_⟩
  have length : (data.overwrite place.start patch).length = data.length :=
    Bytes.length_overwrite within
  rw [transcript, length, read]
  exact ⟨rfl, rfl⟩

def twoOrders : Bytes :=
  Section.magic .little ++ [11, 0, 0, 0, 1, 0, 0, 0, 1, 0, 0, 0, 0, 0, 0, 0, 0, 0, 0, 0] ++
    [1, 102, 7, 0, 0, 0, 0, 0, 0, 0, 2, 0, 0, 0, 0, 0] ++
    Section.magic .big ++ [0, 0, 0, 11, 0, 0, 0, 1, 0, 0, 0, 1, 0, 0, 0, 0, 0, 0, 0, 0] ++
    [1, 103, 0, 0, 0, 0, 0, 0, 0, 9, 0, 0, 0, 2, 0, 0]

theorem damage_stays_in_record_two_orders : ∃ mappings entries changed,
    parse .bestEffort twoOrders = .ok mappings ∧ mappings = ofEntries entries ∧
      entries.length = 2 ∧ Section.Carries ⟨"f", 7⟩ changed ∧
      parse .bestEffort (twoOrders.overwrite 38 [0xFF, 0xFF]) =
        .ok (ofEntries (entries.set 0 changed)) := by
  have readOk : (parse .bestEffort twoOrders).isOk = true := by decide +kernel
  have places : Section.declaredPlaces twoOrders twoOrders.length 0 =
      [⟨⟨"f", 7⟩, 38, 2⟩, ⟨⟨"g", 9⟩, 78, 2⟩] := by decide +kernel
  obtain ⟨mappings, read⟩ := (is_ok_iff _).mp readOk
  obtain ⟨entries, same, placed, damage⟩ := damage_stays_in_record twoOrders mappings read
  rw [places] at placed damage
  obtain ⟨changed, carries, changedRead⟩ := damage 0 ⟨⟨"f", 7⟩, 38, 2⟩ [0xFF, 0xFF] rfl rfl
  exact ⟨mappings, entries, changed, read, same, placed.length_eq.symm, carries, changedRead⟩

end Mappings

end ExecCounts
