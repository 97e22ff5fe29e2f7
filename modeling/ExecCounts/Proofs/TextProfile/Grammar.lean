import ExecCounts.Proofs.Text.Layout
import ExecCounts.Proofs.Text.Spelling
import ExecCounts.TextProfile.Reader

set_option autoImplicit false

namespace ExecCounts.TextProfile

inductive Flag where
  | ir
  | frontEnd
  | contextSensitive
  | entryFirst
  | notEntryFirst
deriving DecidableEq, Repr

namespace Flag

def name : Flag → String
  | .ir => "ir"
  | .frontEnd => "fe"
  | .contextSensitive => "csir"
  | .entryFirst => "entry_first"
  | .notEntryFirst => "not_entry_first"

def set (variant : Variant) : Flag → Variant
  | .ir => { variant with ir := true }
  | .frontEnd => { variant with ir := false }
  | .contextSensitive => { variant with ir := true, contextSensitive := true }
  | .entryFirst => { variant with entryFirst := true }
  | .notEntryFirst => { variant with entryFirst := false }

end Flag

abbrev Listing := List (ValueKind × List Site)

namespace Listing

/-- A kind that is listed more than once has the sites of all its entries. -/
def sites (listing : Listing) (kind : ValueKind) : List Site :=
  (listing.filter fun entry => entry.1 = kind).flatMap Prod.snd

def profile (listing : Listing) : ValueProfile :=
  ⟨listing.sites .indirectCallTarget, listing.sites .memOpSize⟩

end Listing

structure Block where
  name : String
  hash : UInt64
  declared : Nat
  counters : List Count
  values : Option Listing
deriving DecidableEq, Repr

namespace Block

def id (block : Block) : FunctionId := ⟨block.name, block.hash⟩

def counted (block : Block) : Bool := block.counters.length = block.declared

def record (block : Block) : FunctionRecord where
  name := block.name
  hash := block.hash
  counters := block.counters
  values := block.values.map Listing.profile

def mismatch (block : Block) (line : Nat) : Failure where
  kind := .counterCountMismatch
  line := some line
  function := some block.id
  detail := some ("declared " ++ Numeral.decimal block.declared ++ " counters, found " ++
    Numeral.decimal block.counters.length)

end Block

inductive Token where
  | flag (flag : Flag)
  | name (name : String)
  | number (n : Nat)
  | declared (n : Nat)
  | marker
  | observation (seen : Observation)
deriving DecidableEq, Repr

/-- A name that is not mistaken for something else and loses nothing when blanks are dropped. Names
with line feeds have no line to stand on. -/
structure IsName (name : String) : Prop where
  filled : name ≠ ""
  trimmed : trim name.toList = name.toList
  uncommented : name.toList.head? ≠ some '#'
  unmarked : name.toList.head? ≠ some ':'
  unlike : ∀ n, ¬ Numeral.Spells n name.toList

theorem is_name_iff (name : String) : IsName name ↔
    name ≠ "" ∧ trim name.toList = name.toList ∧ name.toList.head? ≠ some '#' ∧
      name.toList.head? ≠ some ':' ∧ Numeral.read? name.toList = none := by
  rw [Numeral.read_none_iff]
  constructor
  · rintro ⟨filled, trimmed, uncommented, unmarked, unlike⟩
    exact ⟨filled, trimmed, uncommented, unmarked, unlike⟩
  · rintro ⟨filled, trimmed, uncommented, unmarked, unlike⟩
    exact ⟨filled, trimmed, uncommented, unmarked, unlike⟩

instance (name : String) : Decidable (IsName name) := decidable_of_iff' _ (is_name_iff name)

/-- The ways to spell a token: flags in letters of either case, numbers in any of their spellings,
and blanks around the colon between a value and its count. -/
inductive Token.Spelled : Token → List Char → Prop
  | flag (flag : Flag) (letters : List Char) (same : letters.map Char.toLower = flag.name.toList) :
      Spelled (.flag flag) (':' :: letters)
  | name {name : String} (isName : IsName name) : Spelled (.name name) name.toList
  | number {n : Nat} {text : List Char} (spells : Numeral.Spells n text) : Spelled (.number n) text
  | declared {n : Nat} {text : List Char} (spells : Numeral.Spells n text) :
      Spelled (.declared n) text
  | marker : Spelled .marker valueMarker.toList
  | observation {seen : Observation} {value before after count : List Char}
      (valueSpells : Numeral.Spells seen.value.toNat value) (blankBefore : Blank before)
      (blankAfter : Blank after) (countSpells : Numeral.Spells seen.count.toNat count) :
      Spelled (.observation seen) (value ++ before ++ ':' :: (after ++ count))

def siteTokens (site : Site) : List Token := .number site.length :: site.map .observation

def kindTokens (entry : ValueKind × List Site) : List Token :=
  .number entry.1.number :: .number entry.2.length :: entry.2.flatMap siteTokens

def listingTokens (listing : Listing) : List Token :=
  .number listing.length :: listing.flatMap kindTokens

def valueTokens : Option Listing → List Token
  | none => []
  | some listing => .marker :: listingTokens listing

def counterTokens (counters : List Count) : List Token :=
  counters.map fun count => .number count.toNat

def contentTokens (block : Block) : List Token :=
  counterTokens block.counters ++ valueTokens block.values

def blockTokens (block : Block) : List Token :=
  .name block.name :: .number block.hash.toNat :: .declared block.declared :: contentTokens block

structure Row where
  token : Option Token
  text : List Char
deriving DecidableEq, Repr

inductive Row.Printed : Row → Prop
  | ignored {text : List Char} (ignored : Line.Ignored text) : Printed ⟨none, text⟩
  | token {token : Token} {before spelled after : List Char} (blankBefore : Blank before)
      (isSpelled : token.Spelled spelled) (blankAfter : Blank after) :
      Printed ⟨some token, before ++ spelled ++ after⟩

def tokensAt (rows : List Row) : List (Token × Nat) :=
  (rows.zipIdx 1).filterMap fun entry => entry.1.token.map fun token => (token, entry.2)

def declaredAt (entries : List (Token × Nat)) : List Nat :=
  entries.filterMap fun
    | (.declared _, line) => some line
    | _ => none

def declaredLines (rows : List Row) : List Nat := declaredAt (tokensAt rows)

/-- The text shows the flags and then the blocks, and consists of these rows. -/
structure Renders (flags : List Flag) (blocks : List Block) (rows : List Row)
    (text : List Char) : Prop where
  tokens : rows.filterMap Row.token = flags.map .flag ++ blocks.flatMap blockTokens
  printed : ∀ row ∈ rows, row.Printed
  unbroken : ∀ row ∈ rows, '\n' ∉ row.text
  joined : Line.Joins (rows.map Row.text) text

theorem flag_applied (flag : Flag) (variant : Variant) :
    applyFlag variant flag.name = some (flag.set variant) := by
  cases flag <;> simp [applyFlag, Flag.name, Flag.set]

section Spelled

theorem matters_of_head (first : Char) (rest : List Char) (uncommented : first ≠ '#') :
    Line.matters (first :: rest) = true :=
  bne_iff_ne.mpr uncommented

theorem number_plain (n : Nat) (text : List Char) (spells : Numeral.Spells n text) :
    ∀ c ∈ text, isBlank c = false ∧ c ≠ '#' ∧ c ≠ ':' := by
  have plain : (Numeral.alphabet.all fun c => !isBlank c && c != '#' && c != ':') = true := by decide
  simp only [List.all_eq_true, Bool.and_eq_true, Bool.not_eq_true', bne_iff_ne, and_assoc] at plain
  exact fun c member => plain c ((Numeral.spells_written n text spells).2 c member)

theorem number_kept (n : Nat) (text : List Char) (spells : Numeral.Spells n text) :
    trim text = text ∧ Line.matters text = true := by
  have plain := number_plain n text spells
  refine ⟨trim_unblank text fun c member => (plain c member).1, ?_⟩
  cases text with
  | nil => exact absurd rfl (Numeral.spells_written n [] spells).1
  | cons first rest => exact matters_of_head first rest (plain first List.mem_cons_self).2.1

theorem unblank_of_lower (c : Char) (unblank : isBlank c.toLower = false) : isBlank c = false := by
  by_cases upper : 'A'.val ≤ c.val ∧ c.val ≤ 'Z'.val
  · have bounds : 65 ≤ c.toNat ∧ c.toNat ≤ 90 := upper
    simp [isBlank]
    omega
  · have same : c.toLower = c := dif_neg upper
    rwa [same] at unblank

theorem flag_kept (flag : Flag) (letters : List Char)
    (same : letters.map Char.toLower = flag.name.toList) :
    trim (':' :: letters) = ':' :: letters := by
  have plain : (flag.name.toList.all fun c => !isBlank c) = true := by cases flag <;> decide
  simp only [List.all_eq_true, Bool.not_eq_true'] at plain
  apply trim_unblank
  refine List.forall_mem_cons.mpr ⟨by decide, fun c member => ?_⟩
  apply unblank_of_lower
  exact plain _ (same ▸ List.mem_map_of_mem member)

theorem observation_kept (value inner count : List Char) (first second : Nat)
    (valueSpells : Numeral.Spells first value) (countSpells : Numeral.Spells second count) :
    trim (value ++ inner ++ count) = value ++ inner ++ count ∧
      Line.matters (value ++ inner ++ count) = true := by
  have valuePlain := number_plain first value valueSpells
  have countPlain := number_plain second count countSpells
  cases value with
  | nil => exact absurd rfl (Numeral.spells_written first [] valueSpells).1
  | cons start others =>
      have filled := (Numeral.spells_written second count countSpells).1
      obtain ⟨startUnblank, uncommented, -⟩ := valuePlain start List.mem_cons_self
      have stopUnblank := (countPlain _ (List.getLast_mem filled)).1
      refine ⟨trim_of_ends start _ _ startUnblank stopUnblank ?_, matters_of_head start _ uncommented⟩
      change (start :: others ++ inner ++ count).getLast? = _
      rw [List.getLast?_append_of_ne_nil _ filled, List.getLast?_eq_some_getLast filled]

theorem Token.Spelled.kept {token : Token} {text : List Char} (spelled : token.Spelled text) :
    trim text = text ∧ Line.matters text = true := by
  cases spelled with
  | flag flag letters same => exact ⟨flag_kept flag letters same, rfl⟩
  | @name name isName =>
      refine ⟨isName.trimmed, ?_⟩
      cases chars : name.toList with
      | nil => exact absurd (String.toList_eq_nil_iff.mp chars) isName.filled
      | cons first rest =>
          have uncommented := isName.uncommented
          rw [chars] at uncommented
          exact matters_of_head first rest fun same => uncommented (congrArg some same)
  | number spells => exact number_kept _ text spells
  | declared spells => exact number_kept _ text spells
  | marker => exact ⟨by decide, by decide⟩
  | @observation seen value before after count valueSpells _ _ countSpells =>
      have kept := observation_kept value (before ++ ':' :: after) count _ _ valueSpells countSpells
      simpa [List.append_assoc] using kept

end Spelled

def ShownAt (entry : Token × Nat) (line : Line) : Prop :=
  entry.1.Spelled line.text ∧ line.number = entry.2

theorem printed_line (row : Row) (printed : row.Printed) (number : Nat) :
    match row.token with
    | none => Line.isSignificant ⟨number, trim row.text⟩ = false
    | some token => Line.isSignificant ⟨number, trim row.text⟩ = true ∧
        token.Spelled (trim row.text) := by
  cases printed with
  | ignored ignored => exact Line.ignored_text _ ignored
  | @token token before spelled after blankBefore isSpelled blankAfter =>
      obtain ⟨trimmed, matters⟩ := isSpelled.kept
      rw [trim_surrounded before spelled after blankBefore blankAfter, trimmed]
      exact ⟨matters, isSpelled⟩

theorem printed_lines (rows : List Row) (printed : ∀ row ∈ rows, row.Printed) (start : Nat) :
    List.Forall₂ ShownAt
      ((rows.zipIdx start).filterMap fun entry => entry.1.token.map fun token => (token, entry.2))
      ((((rows.map Row.text).zipIdx start).map fun entry => (⟨entry.2, trim entry.1⟩ : Line)).filter
        Line.isSignificant) := by
  induction rows generalizing start with
  | nil => exact .nil
  | cons row rows ih =>
      obtain ⟨own, others⟩ := List.forall_mem_cons.mp printed
      have line := printed_line row own start
      have rest := ih others (start + 1)
      rw [List.zipIdx_cons, List.map_cons, List.zipIdx_cons, List.map_cons]
      cases found : row.token with
      | none =>
          rw [found] at line
          rw [List.filterMap_cons_none (by rw [found]; rfl), List.filter_cons_of_neg (by simpa using line)]
          exact rest
      | some token =>
          rw [found] at line
          rw [List.filterMap_cons_some (by rw [found]; rfl), List.filter_cons_of_pos line.1]
          exact .cons ⟨line.2, rfl⟩ rest

theorem rendered_lines {flags : List Flag} {blocks : List Block} {rows : List Row}
    {text : List Char} (rendered : Renders flags blocks rows text) :
    List.Forall₂ ShownAt (tokensAt rows) (Line.ofText text) := by
  have unbroken : ∀ line ∈ rows.map Row.text, '\n' ∉ line := by
    simpa using rendered.unbroken
  rw [Line.of_joined _ _ rendered.joined unbroken]
  exact printed_lines rows rendered.printed 1

end ExecCounts.TextProfile
