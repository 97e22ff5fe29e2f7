import ExecCounts.Proofs.Record
import ExecCounts.Proofs.Text.Line
import ExecCounts.TextProfile.Writer

set_option autoImplicit false

namespace ExecCounts.TextProfile

open Line

def decimalText (n : Nat) : List Char := (Numeral.decimal n).toList

def observationText (seen : Observation) : List Char :=
  (Numeral.decimal seen.value.toNat ++ ":" ++ Numeral.decimal seen.count.toNat).toList

def siteTexts (site : Site) : List (List Char) :=
  decimalText site.length :: site.map observationText

def kindTexts (values : ValueProfile) (kind : ValueKind) : List (List Char) :=
  decimalText kind.number :: decimalText (values.sites kind).length ::
    (values.sites kind).flatMap siteTexts

def usedKinds (values : ValueProfile) : List ValueKind :=
  ValueKind.all.filter fun kind => !(values.sites kind).isEmpty

def profileTexts (values : ValueProfile) : List (List Char) :=
  decimalText (usedKinds values).length :: (usedKinds values).flatMap (kindTexts values)

def valueTexts : Option ValueProfile → List (List Char)
  | none => []
  | some values => valueMarker.toList :: profileTexts values

def counterTexts (counters : List Count) : List (List Char) :=
  counters.map fun count => decimalText count.toNat

def blockTexts (record : FunctionRecord) : List (List Char) :=
  decimalText record.hash.toNat :: decimalText record.counters.length ::
    (counterTexts record.counters ++ valueTexts record.pruned.values)

def recordTexts (record : FunctionRecord) : List (List Char) :=
  record.name.toList :: blockTexts record

def levelText (variant : Variant) : List Char :=
  if variant.contextSensitive then [':', 'c', 's', 'i', 'r']
  else if variant.ir then [':', 'i', 'r']
  else [':', 'f', 'e']

def headerTexts (variant : Variant) : List (List Char) :=
  levelText variant :: if variant.entryFirst then [":entry_first".toList] else []

theorem kept_writable (name : String) (writable : isWritableName name.toList = true) :
    Kept name ∧ name.toList.head? ≠ some ':' := by
  simp only [isWritableName, Bool.and_eq_true, beq_iff_eq, bne_iff_ne, Bool.not_eq_true',
    List.isEmpty_eq_false_iff] at writable
  obtain ⟨⟨⟨⟨⟨filled, trimmed⟩, unbroken⟩, -⟩, comment⟩, flag⟩ := writable
  refine ⟨⟨by simpa using unbroken, trimmed, ?_⟩, flag⟩
  cases text : name.toList with
  | nil => exact absurd text filled
  | cons c rest =>
      rw [text] at comment
      simpa [matters, isSignificant] using comment

theorem kept_observation (seen : Observation) :
    Kept (Numeral.decimal seen.value.toNat ++ ":" ++ Numeral.decimal seen.count.toNat) := by
  apply kept_of_unblank
  · simp
  · intro c member
    rw [String.toList_append, String.toList_append, List.append_assoc, List.mem_append,
      List.mem_append] at member
    obtain value | colon | count := member
    · exact plain_digit c (Numeral.mem_decimal _ c value)
    · cases List.mem_singleton.mp colon
      decide
    · exact plain_digit c (Numeral.mem_decimal _ c count)

theorem site_shows (site : Site) : Shows (siteLines site) (siteTexts site) :=
  Shows.keep (kept_decimal _) (Shows.map site fun seen _ => kept_observation seen)

theorem kind_shows (values : ValueProfile) (kind : ValueKind) :
    Shows (kindLines values kind) (kindTexts values kind) := by
  refine Shows.skip (by cases kind <;> decide) (by cases kind <;> decide) ?_
  refine Shows.keep (kept_decimal _) ?_
  refine Shows.skip (by decide) (by decide) ?_
  exact Shows.keep (kept_decimal _) (Shows.flat_map _ fun site _ => site_shows site)

theorem value_shows (record : FunctionRecord) :
    Shows ((record.values.map valueLines).getD []) (valueTexts record.pruned.values) := by
  cases stored : record.values with
  | none =>
      rw [FunctionRecord.pruned, stored]
      exact Shows.nil
  | some values =>
      have unused : (usedKinds values).isEmpty = values.isEmpty := by
        obtain ⟨calls, sizes⟩ := values
        cases calls <;> cases sizes <;> rfl
      rw [FunctionRecord.pruned, stored, Option.filter_some, Option.map_some, Option.getD_some,
        valueLines]
      change Shows (if (usedKinds values).isEmpty then [] else _) _
      cases empty : values.isEmpty with
      | true =>
          rw [unused, empty]
          exact Shows.nil
      | false =>
          rw [unused, empty]
          refine Shows.keep ⟨by decide, by decide, by decide⟩ ?_
          refine Shows.skip (by decide) (by decide) ?_
          exact Shows.keep (kept_decimal _) (Shows.flat_map _ fun kind _ => kind_shows values kind)

theorem record_shows (record : FunctionRecord)
    (writable : isWritableName record.name.toList = true) :
    Shows (recordLines record) (recordTexts record) := by
  have counts : Shows (record.counters.map fun count => Numeral.decimal count.toNat)
      (counterTexts record.counters) := Shows.map _ fun count _ => kept_decimal count.toNat
  have blank : Shows [""] [] := Shows.skip (by decide) (by decide) Shows.nil
  have body := (counts.append (value_shows record)).append blank
  rw [List.append_nil] at body
  rw [recordLines, List.append_assoc, List.append_assoc, ← List.append_assoc _ _ [""]]
  refine Shows.keep (kept_writable _ writable).1 ?_
  refine Shows.skip (by decide) (by decide) ?_
  refine Shows.keep (kept_decimal _) ?_
  refine Shows.skip (by decide) (by decide) ?_
  refine Shows.keep (kept_decimal _) ?_
  exact Shows.skip (by decide) (by decide) body

theorem header_shows (variant : Variant) : Shows (headerLines variant) (headerTexts variant) := by
  obtain ⟨ir, contextSensitive, entryFirst⟩ := variant
  cases ir <;> cases contextSensitive <;> cases entryFirst <;>
    exact ⟨by decide, by decide⟩

def bodyTexts (records : List FunctionRecord) : List (List Char) := records.flatMap recordTexts

theorem written_texts (profile : Profile) (text : String) (written : write profile = .ok text) :
    (∀ record ∈ profile.records, isWritableName record.name.toList = true) ∧
      (ofText text.toList).map Line.text =
        headerTexts profile.variant ++ bodyTexts profile.records := by
  rw [write] at written
  cases unfit : profile.records.find? fun record => !isWritableName record.name.toList with
  | some record =>
      rw [unfit] at written
      cases written
  | none =>
      rw [unfit] at written
      cases written
      have writable : ∀ record ∈ profile.records, isWritableName record.name.toList = true := by
        intro record member
        have passed := List.find?_eq_none.mp unfit record member
        simpa using passed
      refine ⟨writable, Shows.of_text ?_⟩
      exact (header_shows _).append
        (Shows.flat_map _ fun record member => record_shows record (writable record member))

end ExecCounts.TextProfile
