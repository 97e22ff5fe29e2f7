import ExecCounts.Proofs.Outcome
import ExecCounts.Proofs.TextProfile.Grammar

set_option autoImplicit false

namespace ExecCounts.TextProfile

variable {α β : Type} {tokens others : List Token} {rest : List Line}

def Shown (tokens : List Token) (lines : List Line) : Prop :=
  List.Forall₂ (fun token line => token.Spelled line.text) tokens lines

/-- On lines that show the tokens, before `rest`, the result is `result` and `rest` is left. -/
def Parses (scan : Scan α) (tokens : List Token) (rest : List Line) (result : α) : Prop :=
  ∀ lines, Shown tokens lines → ∀ last, ∃ number,
    scan ⟨lines ++ rest, last⟩ = .ok result ⟨rest, number⟩

theorem shown_append (tokens others : List Token) (lines : List Line)
    (shown : Shown (tokens ++ others) lines) :
    ∃ first second, lines = first ++ second ∧ Shown tokens first ∧ Shown others second := by
  induction tokens generalizing lines with
  | nil => exact ⟨[], lines, rfl, .nil, shown⟩
  | cons token tokens ih =>
      cases shown with
      | @cons _ line _ lines spelled shown =>
          obtain ⟨first, second, rfl, firstShown, secondShown⟩ := ih lines shown
          exact ⟨line :: first, second, rfl, .cons spelled firstShown, secondShown⟩

theorem expect_run (what : String) (line : Line) (lines : List Line) (last : Nat) :
    expect what ⟨line :: lines, last⟩ = .ok line ⟨lines, line.number⟩ := rfl

theorem pure_parses (result : α) : Parses (pure result) [] rest result := by
  intro lines shown last
  cases shown
  exact ⟨last, rfl⟩

theorem bind_parses {first : Scan α} {next : α → Scan β} {value : α} {result : β}
    (firstParses : ∀ rest, Parses first tokens rest value)
    (nextParses : Parses (next value) others rest result) :
    Parses (first >>= next) (tokens ++ others) rest result := by
  intro lines shown last
  obtain ⟨own, later, rfl, ownShown, laterShown⟩ := shown_append tokens others lines shown
  obtain ⟨middle, ran⟩ := firstParses (later ++ rest) own ownShown last
  obtain ⟨number, ranOn⟩ := nextParses later laterShown middle
  rw [List.append_assoc]
  exact ⟨number, (run_bind_of_ok ran).trans ranOn⟩

theorem bind_parses_last {first : Scan α} {next : α → Scan β} {value : α} {result : β}
    (firstParses : ∀ rest, Parses first tokens rest value)
    (nextParses : Parses (next value) [] rest result) :
    Parses (first >>= next) tokens rest result := by
  have both : Parses (first >>= next) (tokens ++ []) rest result := bind_parses firstParses nextParses
  rwa [List.append_nil] at both

theorem expect_bind_parses {next : Line → Scan β} {token : Token} {result : β} (what : String)
    (nextParses : ∀ line : Line, token.Spelled line.text → Parses (next line) tokens rest result) :
    Parses (expect what >>= next) (token :: tokens) rest result := by
  intro lines shown last
  cases shown with
  | @cons _ line _ lines spelled shown =>
      obtain ⟨number, ran⟩ := nextParses line spelled lines shown line.number
      exact ⟨number, (run_bind_of_ok (expect_run what line (lines ++ rest) last)).trans ran⟩

theorem expect_number_run (what : String) (n : Nat) (line : Line) (lines : List Line) (last : Nat)
    (spells : Numeral.Spells n line.text) :
    expectNumber what ⟨line :: lines, last⟩ = .ok (UInt64.ofNat n) ⟨lines, line.number⟩ := by
  rw [expectNumber, run_bind_of_ok (expect_run what line lines last),
    Numeral.read_spelled n line.text spells]
  rfl

theorem expect_number_bind_parses {next : UInt64 → Scan β} {n : Nat} {result : β} (what : String)
    (nextParses : ∀ word : UInt64, word.toNat = n → Parses (next word) tokens rest result) :
    Parses (expectNumber what >>= next) (.number n :: tokens) rest result := by
  intro lines shown last
  cases shown with
  | @cons _ line _ lines spelled shown =>
      cases spelled with
      | number spells =>
          have word : (UInt64.ofNat n).toNat = n := UInt64.toNat_ofNat_of_lt' spells.1
          obtain ⟨number, ran⟩ := nextParses _ word lines shown line.number
          have first := expect_number_run what n line (lines ++ rest) last spells
          exact ⟨number, (run_bind_of_ok first).trans ran⟩

theorem times_parses {action : Scan α} (write : α → List Token) (values : List α)
    (each : ∀ value ∈ values, ∀ rest, Parses action (write value) rest value) :
    Parses (times values.length action) (values.flatMap write) rest values := by
  induction values generalizing rest with
  | nil => exact pure_parses []
  | cons value values ih =>
      have eachOther := fun other member => each other (List.mem_cons_of_mem _ member)
      rw [List.flatMap_cons, List.length_cons]
      exact bind_parses (each value List.mem_cons_self)
        (bind_parses_last (fun _ => ih eachOther) (pure_parses (value :: values)))

section Values

theorem observation_spelled (seen : Observation) (text : List Char)
    (spelled : Token.Spelled (.observation seen) text) : observation? text = some seen := by
  cases spelled with
  | @observation _ value before after count valueSpells blankBefore blankAfter countSpells =>
      have unlike : ∀ c ∈ value ++ before, (c != ':') = true := by
        intro c member
        rw [bne_iff_ne]
        obtain inValue | inBefore := List.mem_append.mp member
        · exact (number_plain _ value valueSpells c inValue).2.2
        · rintro rfl
          exact absurd (blankBefore ':' inBefore) (by decide)
      have valueRead : Numeral.read? (trim (value ++ before)) = some seen.value := by
        rw [trim_append_blank value before blankBefore, (number_kept _ value valueSpells).1,
          Numeral.read_iff]
        exact valueSpells
      have countRead : Numeral.read? (trim (after ++ count)) = some seen.count := by
        have trimmed := trim_surrounded after count [] blankAfter nofun
        rw [List.append_nil] at trimmed
        rw [trimmed, (number_kept _ count countSpells).1, Numeral.read_iff]
        exact countSpells
      rw [observation?, List.dropWhile_append_of_pos unlike, List.takeWhile_append_of_pos unlike,
        List.dropWhile_cons_of_neg (by decide), List.takeWhile_cons_of_neg (by decide),
        List.append_nil]
      simp only [valueRead, countRead]
      rfl

theorem observation_parses (seen : Observation) :
    Parses observation [.observation seen] rest seen := by
  apply expect_bind_parses
  intro line spelled
  rw [observation_spelled seen line.text spelled]
  exact pure_parses seen

theorem site_parses (values : Site) : Parses site (siteTokens values) rest values := by
  have observations : Parses (times values.length observation)
      (values.flatMap fun seen => [.observation seen]) rest values :=
    times_parses _ values fun seen _ _ => observation_parses seen
  rw [← List.map_eq_flatMap] at observations
  apply expect_number_bind_parses
  intro word count
  rw [count]
  exact observations

theorem kind_parses (entry : ValueKind × List Site) :
    Parses kind (kindTokens entry) rest entry := by
  apply expect_bind_parses
  intro line spelled
  have number : (Numeral.read? line.text).bind (fun n => ValueKind.ofNumber? n.toNat) =
      some entry.1 := by
    cases spelled with
    | number spells =>
        rw [Numeral.read_spelled _ line.text spells, Option.bind_some,
          UInt64.toNat_ofNat_of_lt' spells.1, ValueKind.of_number_number]
  rw [number]
  dsimp only
  apply expect_number_bind_parses
  intro word count
  rw [count]
  exact bind_parses_last (fun _ => times_parses siteTokens entry.2 fun site _ _ => site_parses site)
    (pure_parses entry)

theorem sites_add_sites (profile : ValueProfile) (entry : ValueKind × List Site)
    (kind : ValueKind) : (addSites profile entry).sites kind =
      profile.sites kind ++ if entry.1 = kind then entry.2 else [] := by
  obtain ⟨own, sites⟩ := entry
  cases own <;> cases kind <;> simp [addSites, ValueProfile.withSites, ValueProfile.sites]

theorem sites_fold (listing : Listing) (profile : ValueProfile) (kind : ValueKind) :
    (listing.foldl addSites profile).sites kind = profile.sites kind ++ listing.sites kind := by
  induction listing generalizing profile with
  | nil => exact (List.append_nil _).symm
  | cons entry listing ih =>
      rw [List.foldl_cons, ih, sites_add_sites, List.append_assoc]
      by_cases own : entry.1 = kind <;> simp [Listing.sites, own]

theorem listing_profile (listing : Listing) : listing.foldl addSites .empty = listing.profile := by
  have calls := sites_fold listing .empty .indirectCallTarget
  have sizes := sites_fold listing .empty .memOpSize
  exact congrArg₂ ValueProfile.mk calls sizes

theorem value_profile_parses (listing : Listing) :
    Parses valueProfile (listingTokens listing) rest listing.profile := by
  apply expect_number_bind_parses
  intro word count
  rw [count]
  refine bind_parses_last
    (fun _ => times_parses kindTokens listing fun entry _ _ => kind_parses entry) ?_
  rw [listing_profile]
  exact pure_parses listing.profile

end Values

def NoMark (texts : List (List Char)) : Prop := ∀ text ∈ texts.head?, text.head? ≠ some ':'

section Header

theorem header_stop (variant : Variant) (last : Nat) (lines : List Line)
    (unmarked : NoMark (lines.map Line.text)) :
    header variant last lines = .ok (variant, ⟨lines, last⟩) := by
  cases lines with
  | nil => rfl
  | cons line lines =>
      have other := unmarked line.text rfl
      unfold header
      split
      · rename_i flag text
        rw [text] at other
        exact absurd rfl other
      · rfl

theorem header_flag (variant changed : Variant) (last : Nat) (line : Line) (lines : List Line)
    (flag : List Char) (text : line.text = ':' :: flag)
    (unmarked : String.ofList (':' :: flag) ≠ valueMarker)
    (applied : applyFlag variant (String.ofList (flag.map Char.toLower)) = some changed) :
    header variant last (line :: lines) = header changed line.number lines := by
  rw [header, text]
  simp only [if_neg unmarked, applied]

theorem flag_spelled (flag : Flag) (text : List Char) (spelled : Token.Spelled (.flag flag) text) :
    ∃ letters, text = ':' :: letters ∧ letters.map Char.toLower = flag.name.toList := by
  cases spelled with
  | flag _ letters same => exact ⟨letters, rfl, same⟩

theorem flag_unlike_marker (flag : Flag) (letters : List Char)
    (same : letters.map Char.toLower = flag.name.toList) :
    String.ofList (':' :: letters) ≠ valueMarker := by
  intro marked
  have text : ':' :: letters = ':' :: "value_profile".toList := by
    rw [← String.toList_ofList (l := ':' :: letters), marked]
    rfl
  rw [(List.cons.inj text).2] at same
  cases flag <;> exact absurd same (by decide)

theorem header_flags (flags : List Flag) (variant : Variant) (lines rest : List Line)
    (shown : Shown (flags.map .flag) lines) (unmarked : NoMark (rest.map Line.text)) (last : Nat) :
    ∃ number, header variant last (lines ++ rest) =
      .ok (flags.foldl Flag.set variant, ⟨rest, number⟩) := by
  induction flags generalizing variant lines last with
  | nil =>
      cases shown
      exact ⟨last, header_stop variant last rest unmarked⟩
  | cons flag flags ih =>
      cases shown with
      | @cons _ line _ lines spelled shown =>
          obtain ⟨letters, text, same⟩ := flag_spelled flag line.text spelled
          have applied : applyFlag variant (String.ofList (letters.map Char.toLower)) =
              some (flag.set variant) := by
            rw [same, String.ofList_toList, flag_applied]
          have first := header_flag variant (flag.set variant) last line (lines ++ rest) letters text
            (flag_unlike_marker flag letters same) applied
          obtain ⟨number, ran⟩ := ih (flag.set variant) lines shown line.number
          exact ⟨number, first.trans ran⟩

end Header

/-- The lines behind a block: the next one is neither a number nor marked by a colon. -/
structure Stops (rest : List Line) : Prop where
  unread : ∀ text ∈ (rest.map Line.text).head?, Numeral.read? text = none
  unmarked : NoMark (rest.map Line.text)

section Content

theorem counters_stop (script : Script)
    (stops : ∀ text ∈ (script.lines.map Line.text).head?, Numeral.read? text = none) :
    counters script = .ok [] script := by
  obtain ⟨lines, last⟩ := script
  cases lines with
  | nil => rfl
  | cons line lines =>
      have none := stops line.text rfl
      rw [counters]
      dsimp only
      rw [takeNumbers, none]

theorem counters_number (line : Line) (lines : List Line) (last : Nat) (n : UInt64)
    (number : Numeral.read? line.text = some n) (numbers : List UInt64) (after : Script)
    (ran : counters ⟨lines, line.number⟩ = .ok numbers after) :
    counters ⟨line :: lines, last⟩ = .ok (n :: numbers) after := by
  rw [counters] at ran ⊢
  dsimp only at ran ⊢
  rw [takeNumbers, number]
  cases ran
  rfl

theorem counters_parses (values : List Count)
    (stops : ∀ text ∈ (rest.map Line.text).head?, Numeral.read? text = none) :
    Parses counters (counterTokens values) rest values := by
  induction values with
  | nil =>
      intro lines shown last
      cases shown
      exact ⟨last, counters_stop ⟨rest, last⟩ stops⟩
  | cons value values ih =>
      intro lines shown last
      cases shown with
      | @cons _ line _ lines spelled shown =>
          cases spelled with
          | number spells =>
              obtain ⟨number, ran⟩ := ih lines shown line.number
              exact ⟨number, counters_number line (lines ++ rest) last value
                ((Numeral.read_iff line.text value).mpr spells) values _ ran⟩

theorem optional_values_run (line : Line) (lines : List Line) (last : Nat) :
    optionalValues ⟨line :: lines, last⟩ =
      (if String.ofList line.text = valueMarker then do
        let _ ← expect "a value profile"
        return some (← valueProfile)
      else return none : Scan (Option ValueProfile)) ⟨line :: lines, last⟩ := rfl

theorem optional_values_none (rest : List Line) (last : Nat)
    (unmarked : NoMark (rest.map Line.text)) : optionalValues ⟨rest, last⟩ = .ok none ⟨rest, last⟩ := by
  cases rest with
  | nil => rfl
  | cons line rest =>
      have other : String.ofList line.text ≠ valueMarker := by
        intro marked
        have text : line.text = valueMarker.toList := by rw [← marked, String.toList_ofList]
        exact unmarked line.text rfl (by rw [text]; rfl)
      rw [optional_values_run, if_neg other]
      rfl

theorem marker_spelled (text : List Char) (spelled : Token.Spelled .marker text) :
    text = valueMarker.toList := by
  cases spelled
  rfl

theorem optional_values_some (listing : Listing) :
    Parses optionalValues (valueTokens (some listing)) rest (some listing.profile) := by
  have found : Parses (do
      let _ ← expect "a value profile"
      return some (← valueProfile)) (valueTokens (some listing)) rest (some listing.profile) :=
    expect_bind_parses _ fun _ _ =>
      bind_parses_last (fun _ => value_profile_parses listing) (pure_parses _)
  intro lines shown last
  cases shown with
  | @cons _ line _ lines spelled shown =>
      have marked : String.ofList line.text = valueMarker := by
        rw [marker_spelled line.text spelled, String.ofList_toList]
      rw [List.cons_append, optional_values_run, if_pos marked]
      exact found (line :: lines) (.cons spelled shown) last

theorem value_tokens_parses (values : Option Listing)
    (unmarked : values = none → NoMark (rest.map Line.text)) :
    Parses optionalValues (valueTokens values) rest (values.map Listing.profile) := by
  cases values with
  | none =>
      intro lines shown last
      cases shown
      exact ⟨last, optional_values_none rest last (unmarked rfl)⟩
  | some listing => exact optional_values_some listing

theorem values_stop (values : Option Listing) (lines rest : List Line)
    (shown : Shown (valueTokens values) lines) (stops : Stops rest) :
    ∀ text ∈ ((lines ++ rest).map Line.text).head?, Numeral.read? text = none := by
  cases values with
  | none =>
      cases shown
      exact stops.unread
  | some listing =>
      cases shown with
      | @cons _ line _ lines spelled _ =>
          rintro text ⟨⟩
          rw [marker_spelled line.text spelled]
          decide

end Content

end ExecCounts.TextProfile
