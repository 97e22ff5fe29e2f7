import ExecCounts.Proofs.Parts
import ExecCounts.Proofs.TextProfile.Blocks
import ExecCounts.Proofs.Utf8

set_option autoImplicit false

namespace ExecCounts.TextProfile

variable {rest : List (List Char)}

/-- What is left of the flags of a variant. The header line of a context sensitive profile also says
that the counters are in the intermediate representation. -/
def flagsRead (variant : Variant) : Variant :=
  { variant with ir := variant.ir || variant.contextSensitive }

section Header

def writtenFlags (variant : Variant) : List Flag :=
  (if variant.contextSensitive then .contextSensitive else if variant.ir then .ir else .frontEnd) ::
    if variant.entryFirst then [.entryFirst] else []

theorem written_flags_set (variant : Variant) :
    (writtenFlags variant).foldl Flag.set .plain = flagsRead variant := by
  obtain ⟨ir, contextSensitive, entryFirst⟩ := variant
  cases ir <;> cases contextSensitive <;> cases entryFirst <;> rfl

theorem header_spelled (variant : Variant) :
    List.Forall₂ Token.Spelled ((writtenFlags variant).map .flag) (headerTexts variant) := by
  have entry : Token.Spelled (.flag .entryFirst) ":entry_first".toList :=
    .flag .entryFirst "entry_first".toList (by decide)
  obtain ⟨ir, contextSensitive, entryFirst⟩ := variant
  have level : Token.Spelled (.flag (if contextSensitive then .contextSensitive else if ir then .ir
      else .frontEnd)) (levelText ⟨ir, contextSensitive, entryFirst⟩) := by
    cases contextSensitive with
    | true => exact .flag .contextSensitive ['c', 's', 'i', 'r'] (by decide)
    | false =>
        cases ir with
        | true => exact .flag .ir ['i', 'r'] (by decide)
        | false => exact .flag .frontEnd ['f', 'e'] (by decide)
  cases entryFirst with
  | true => exact .cons level (.cons entry .nil)
  | false => exact .cons level .nil

theorem header_read (variant : Variant) (lines : List Line) (unmarked : NoMark rest)
    (left : lines.map Line.text = headerTexts variant ++ rest) :
    ∃ body : Script, header .plain 0 lines = .ok (flagsRead variant, body) ∧
      body.lines.map Line.text = rest := by
  obtain ⟨top, later, rfl, topText, laterText⟩ := List.map_eq_append_iff.mp left
  have shown : Shown ((writtenFlags variant).map .flag) top := by
    have spelled := header_spelled variant
    rwa [← topText, List.forall₂_map_right_iff] at spelled
  obtain ⟨number, ran⟩ := header_flags (writtenFlags variant) .plain top later shown
    (laterText ▸ unmarked) 0
  rw [written_flags_set] at ran
  exact ⟨⟨later, number⟩, ran, laterText⟩

end Header

section Sizes

theorem kind_texts_le (values : ValueProfile) (kind : ValueKind)
    (used : values.sites kind ≠ []) : (kindTexts values kind).length ≤ (profileTexts values).length := by
  have listed : kind ∈ usedKinds values := by
    rw [usedKinds, List.mem_filter]
    exact ⟨by cases kind <;> decide, by simpa using used⟩
  have bound := length_part_le _ (kindTexts values) kind listed
  rw [profileTexts, List.length_cons]
  omega

theorem countable_of_length (values : ValueProfile)
    (fits : (profileTexts values).length < UInt64.size) : Countable values := by
  have whole : ∀ kind, ((values.sites kind).flatMap siteTexts).length < UInt64.size := by
    intro kind
    by_cases used : values.sites kind = []
    · rw [used]
      decide
    · have bound := kind_texts_le values kind used
      simp only [kindTexts, List.length_cons] at bound
      omega
  refine ⟨fun kind => ?_, fun kind site member => ?_⟩
  · have bound := length_flat_map_le (values.sites kind) siteTexts fun _ _ => Nat.zero_lt_succ _
    exact Nat.lt_of_le_of_lt bound (whole kind)
  · have bound := length_part_le _ siteTexts site member
    have above := whole kind
    simp only [siteTexts, List.length_cons, List.length_map] at bound
    omega

theorem readable_of_length (records : List FunctionRecord)
    (writable : ∀ record ∈ records, isWritableName record.name.toList = true)
    (fits : (bodyTexts records).length < UInt64.size) :
    ∀ record ∈ records, Readable record := by
  intro record member
  have bound := length_part_le records recordTexts record member
  rw [← bodyTexts] at bound
  simp only [recordTexts, blockTexts, counterTexts, List.length_cons, List.length_append,
    List.length_map] at bound
  refine ⟨writable record member, by omega, ?_⟩
  intro values kept
  rw [Option.mem_def.mp kept] at bound
  simp only [valueTexts, List.length_cons] at bound
  exact countable_of_length values (by omega)

end Sizes

theorem text_round_trip (profile : Profile) (text : String) (written : write profile = .ok text)
    (fits : (Utf8.bytes text).length < UInt64.size) :
    if runsOn profile.records then ∃ failure : Failure, failure.kind = .counterCountMismatch ∧
      parse .strict (Utf8.bytes text) = .error failure
    else parse .strict (Utf8.bytes text) = .ok { Profile.empty .text with
      variant := flagsRead profile.variant
      records := profile.records.map FunctionRecord.pruned } := by
  obtain ⟨writable, texts⟩ := written_texts profile text written
  have count := congrArg List.length texts
  have few := Line.length_of_text text.toList
  have long := Utf8.length_le_encode text.toList
  rw [← Utf8.bytes] at long
  rw [List.length_map, List.length_append, headerTexts, List.length_cons] at count
  have readable := readable_of_length profile.records writable (by omega)
  have unmarked := body_unmarked profile.records readable
  obtain ⟨body, headerRan, left⟩ := header_read profile.variant _ unmarked texts
  -- Each function has a line at least, so that there is fuel for all of them.
  have enough : profile.records.length ≤ body.lines.length := by
    have bound := length_flat_map_le profile.records recordTexts fun _ _ => Nat.zero_lt_succ _
    have same := congrArg List.length left
    rw [List.length_map] at same
    rw [same]
    exact bound
  have lines : TextProfile.lines (Utf8.bytes text) = .ok (Line.ofText text.toList) := by
    rw [TextProfile.lines, Utf8.read_bytes]
  have transcript : TextProfile.transcript (Utf8.bytes text) =
      .ok (flagsRead profile.variant, blocks body.lines.length body) := by
    rw [TextProfile.transcript, lines]
    change (header .plain 0 (Line.ofText text.toList) >>= _) = _
    rw [headerRan]
    rfl
  have read := blocks_read profile.records readable body.lines.length enough body left
  rw [parse, transcript]
  by_cases runs : runsOn profile.records
  · rw [if_pos runs] at read ⊢
    obtain ⟨failure, kind, settled⟩ := read
    refine ⟨failure, kind, ?_⟩
    change (Transcript.settle .strict (blocks body.lines.length body) >>= _) = _
    rw [settled]
    rfl
  · rw [if_neg runs] at read ⊢
    change (Transcript.settle .strict (blocks body.lines.length body) >>= _) = _
    rw [read]
    rfl

def numberNames : Profile where
  format := .text
  version := none
  variant := ⟨true, true, true⟩
  records := [⟨"42", 7, [3, 0], some ⟨[[⟨5, 2⟩, ⟨9, 1⟩], []], []⟩⟩, ⟨"0x1f", 1, [], some ⟨[], []⟩⟩,
    ⟨"main", 0, [18446744073709551615], none⟩]
  binaryIds := []
  skipped := []

theorem text_round_trip_number_names : ∃ text : String, write numberNames = .ok text ∧
    (Utf8.bytes text).length < UInt64.size ∧ parse .strict (Utf8.bytes text) = .ok { numberNames with
      records := numberNames.records.map FunctionRecord.pruned } := by
  have written : write numberNames =
      .ok (String.join ((linesOf numberNames).map (· ++ "\n"))) := by
    have writable : numberNames.records.find?
        (fun record => !isWritableName record.name.toList) = none := by decide +kernel
    rw [write, writable]
  have fits : (Utf8.bytes (String.join ((linesOf numberNames).map (· ++ "\n")))).length <
      UInt64.size := by
    rw [Utf8.bytes_join]
    decide +kernel
  have contained : runsOn numberNames.records = false := by decide +kernel
  have read := text_round_trip numberNames _ written fits
  rw [if_neg (by rw [contained]; exact Bool.false_ne_true)] at read
  exact ⟨_, written, fits, read⟩

def swallowedName : Profile where
  format := .text
  version := none
  variant := .plain
  records := [⟨"foo", 1, [], none⟩, ⟨"42", 7, [9], none⟩]
  binaryIds := []
  skipped := []

theorem swallowed_name_unreadable :
    ∃ text, write swallowedName = .ok text ∧ (parse .strict (Utf8.bytes text)).isOk = false := by
  apply (to_option_map_some_iff _ (fun text => (parse .strict (Utf8.bytes text)).isOk) _).mp
  decide +kernel

end ExecCounts.TextProfile
