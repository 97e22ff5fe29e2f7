import ExecCounts.Proofs.TextProfile.Tokens
import ExecCounts.Proofs.TextProfile.Written

set_option autoImplicit false

namespace ExecCounts.TextProfile

variable {α : Type} {tokens : List Token} {texts rest : List (List Char)}

def Takes (scan : Scan α) (texts rest : List (List Char)) (result : α) : Prop :=
  ∀ script : Script, script.lines.map Line.text = texts ++ rest →
    ∃ after : Script, scan script = .ok result after ∧ after.lines.map Line.text = rest

theorem takes_of_parses {scan : Scan α} {result : α}
    (spelled : List.Forall₂ Token.Spelled tokens texts)
    (parses : ∀ lines : List Line, lines.map Line.text = rest → Parses scan tokens lines result) :
    Takes scan texts rest result := by
  rintro ⟨lines, last⟩ left
  obtain ⟨own, later, rfl, ownText, laterText⟩ := List.map_eq_append_iff.mp left
  have shown : Shown tokens own := by
    rwa [← ownText, List.forall₂_map_right_iff] at spelled
  obtain ⟨number, ran⟩ := parses later laterText own shown last
  exact ⟨⟨later, number⟩, ran, laterText⟩

section Written

structure Countable (values : ValueProfile) : Prop where
  sites : ∀ kind, (values.sites kind).length < UInt64.size
  observations : ∀ kind, ∀ site ∈ values.sites kind, site.length < UInt64.size

theorem decimal_spelled (n : Nat) (fits : n < UInt64.size) :
    Token.Spelled (.number n) (decimalText n) :=
  .number ((Numeral.spells_iff n _).mpr ⟨fits, Numeral.read_decimal n fits⟩)

theorem word_spells (word : UInt64) : Numeral.Spells word.toNat (decimalText word.toNat) :=
  (Numeral.read_iff _ word).mp (Numeral.read_decimal_word word)

theorem observation_text_spelled (seen : Observation) :
    Token.Spelled (.observation seen) (observationText seen) := by
  have text : observationText seen = decimalText seen.value.toNat ++ [] ++
      ':' :: ([] ++ decimalText seen.count.toNat) := by
    simp [observationText, decimalText]
  rw [text]
  exact .observation (word_spells seen.value) nofun nofun (word_spells seen.count)

theorem spelled_flat_map {β : Type} (write : β → List Token) (print : β → List (List Char))
    (values : List β) (each : ∀ value ∈ values, List.Forall₂ Token.Spelled (write value) (print value)) :
    List.Forall₂ Token.Spelled (values.flatMap write) (values.flatMap print) := by
  induction values with
  | nil => exact .nil
  | cons value values ih =>
      have others := ih fun other member => each other (List.mem_cons_of_mem _ member)
      exact List.rel_append (each value List.mem_cons_self) others

theorem site_spelled (site : Site) (fits : site.length < UInt64.size) :
    List.Forall₂ Token.Spelled (siteTokens site) (siteTexts site) := by
  refine .cons (decimal_spelled _ fits) ?_
  rw [List.forall₂_map_left_iff, List.forall₂_map_right_iff, List.forall₂_same]
  exact fun seen _ => observation_text_spelled seen

theorem kind_spelled (values : ValueProfile) (countable : Countable values) (kind : ValueKind) :
    List.Forall₂ Token.Spelled (kindTokens (kind, values.sites kind)) (kindTexts values kind) := by
  have small : kind.number < UInt64.size := by cases kind <;> decide
  refine .cons (decimal_spelled _ small) (.cons (decimal_spelled _ (countable.sites kind)) ?_)
  exact spelled_flat_map siteTokens siteTexts _ fun site member =>
    site_spelled site (countable.observations kind site member)

def listingOf (values : ValueProfile) : Listing :=
  (usedKinds values).map fun kind => (kind, values.sites kind)

theorem profile_listing_of (values : ValueProfile) : (listingOf values).profile = values := by
  obtain ⟨calls, sizes⟩ := values
  rw [← listing_profile]
  cases calls <;> cases sizes <;> rfl

theorem values_spelled (values : Option ValueProfile)
    (countable : ∀ stored ∈ values, Countable stored) :
    List.Forall₂ Token.Spelled (valueTokens (values.map listingOf)) (valueTexts values) := by
  cases values with
  | none => exact .nil
  | some values =>
      have fits : (listingOf values).length < UInt64.size := by
        rw [listingOf, List.length_map]
        exact Nat.lt_of_le_of_lt (List.length_filter_le _ _) (by decide)
      have kinds := spelled_flat_map (fun kind => kindTokens (kind, values.sites kind))
        (kindTexts values) (usedKinds values) fun kind _ => kind_spelled values (countable _ rfl) kind
      refine .cons .marker ?_
      rw [listingTokens, listingOf, List.flatMap_map, profileTexts, List.length_map]
      rw [listingOf, List.length_map] at fits
      exact .cons (decimal_spelled _ fits) kinds

end Written

theorem optional_values_takes (values : Option ValueProfile)
    (countable : ∀ stored ∈ values, Countable stored) (unmarked : values = none → NoMark rest) :
    Takes optionalValues (valueTexts values) rest values := by
  have same : (values.map listingOf).map Listing.profile = values := by
    cases values with
    | none => rfl
    | some values => exact congrArg some (profile_listing_of values)
  refine takes_of_parses (values_spelled values countable) fun lines left => ?_
  rw [← left] at unmarked
  have parses := value_tokens_parses (values.map listingOf) fun none =>
    unmarked (Option.map_eq_none_iff.mp none)
  rwa [same] at parses

end ExecCounts.TextProfile
