import ExecCounts.Proofs.Parts
import ExecCounts.Proofs.Policy
import ExecCounts.Proofs.TextProfile.Tokens
import ExecCounts.Proofs.Utf8

set_option autoImplicit false

namespace ExecCounts.TextProfile

theorem name_spelled (name : String) (text : List Char) (spelled : Token.Spelled (.name name) text) :
    text = name.toList ∧ IsName name := by
  cases spelled with
  | name isName => exact ⟨rfl, isName⟩

def Block.entry (block : Block) (line : Nat) : Except Failure FunctionRecord :=
  if block.counted then .ok block.record else .error (block.mismatch line)

def entriesOf (blocks : List Block) (numbers : List Nat) :
    List (Except Failure FunctionRecord) :=
  (blocks.zip numbers).map fun entry => entry.1.entry entry.2

theorem block_content_run (block : Block) (lines rest : List Line)
    (shown : Shown (contentTokens block) lines) (stops : Stops rest) (last : Nat) :
    ∃ middle number, counters ⟨lines ++ rest, last⟩ = .ok block.counters middle ∧
      optionalValues middle = .ok (block.values.map Listing.profile) ⟨rest, number⟩ := by
  obtain ⟨counts, values, rfl, countsShown, valuesShown⟩ := shown_append _ _ lines shown
  rw [List.append_assoc]
  obtain ⟨middle, countersRan⟩ := counters_parses block.counters
    (values_stop block.values values rest valuesShown stops) counts countsShown last
  obtain ⟨number, valuesRan⟩ :=
    value_tokens_parses block.values (fun _ => stops.unmarked) values valuesShown middle
  exact ⟨_, number, countersRan, valuesRan⟩

theorem block_parsed (block : Block) (line hashLine countLine : Line) (lines rest : List Line)
    (named : line.text = block.name.toList) (isName : IsName block.name)
    (hash : Numeral.Spells block.hash.toNat hashLine.text)
    (count : Numeral.Spells block.declared countLine.text)
    (shown : Shown (contentTokens block) lines) (stops : Stops rest) (last : Nat) :
    ∃ number, TextProfile.block line ⟨hashLine :: countLine :: (lines ++ rest), last⟩ =
      .ok (block.entry countLine.number) ⟨rest, number⟩ := by
  obtain ⟨middle, number, countersRan, valuesRan⟩ :=
    block_content_run block lines rest shown stops countLine.number
  have unmarked : line.text.head? ≠ some ':' := by
    rw [named]
    exact isName.unmarked
  refine ⟨number, ?_⟩
  rw [TextProfile.block, if_neg unmarked]
  dsimp only
  rw [run_bind_of_ok (expect_number_run _ _ hashLine _ last hash),
    run_bind_of_ok (expect_run _ _ _ _), Numeral.read_spelled _ _ count]
  dsimp only
  rw [run_bind_of_ok countersRan, run_bind_of_ok valuesRan, UInt64.toNat_ofNat_of_lt' count.1,
    UInt64.ofNat_toNat, named, String.ofList_toList]
  by_cases same : block.counters.length = block.declared
  · have counted : block.counted = true := decide_eq_true same
    rw [if_pos same, Block.entry, if_pos counted]
    rfl
  · have miscounted : ¬ block.counted = true := by simpa [Block.counted] using same
    rw [if_neg same, Block.entry, if_neg miscounted]
    rfl

def declaredOn (tokens : List Token) (lines : List Line) : List Nat :=
  declaredAt (tokens.zip (lines.map Line.number))

theorem declared_on_append (tokens others : List Token) (own later : List Line)
    (shown : Shown tokens own) :
    declaredOn (tokens ++ others) (own ++ later) =
      declaredOn tokens own ++ declaredOn others later := by
  have aligned : tokens.length = (own.map Line.number).length := by
    rw [List.length_map]
    exact shown.length_eq
  rw [declaredOn, List.map_append, List.zip_append aligned, declaredAt, List.filterMap_append]
  rfl

theorem declared_on_nil (tokens : List Token) (lines : List Line)
    (undeclared : ∀ n, .declared n ∉ tokens) : declaredOn tokens lines = [] := by
  rw [declaredOn, declaredAt, List.filterMap_eq_nil_iff]
  rintro ⟨token, number⟩ member
  cases token with
  | declared n => exact absurd (List.of_mem_zip member).1 (undeclared n)
  | _ => rfl

theorem content_undeclared (block : Block) (n : Nat) : .declared n ∉ contentTokens block := by
  cases values : block.values <;>
    simp [contentTokens, counterTokens, values, valueTokens, listingTokens, kindTokens, siteTokens]

theorem declared_on_block (block : Block) (more : List Token) (name hash count : Line)
    (content others : List Line) (shown : Shown (contentTokens block) content) :
    declaredOn (blockTokens block ++ more) (name :: hash :: count :: (content ++ others)) =
      count.number :: declaredOn more others := by
  have rest : declaredOn (contentTokens block ++ more) (content ++ others) =
      declaredOn more others := by
    rw [declared_on_append _ _ _ _ shown, declared_on_nil _ _ (content_undeclared block),
      List.nil_append]
  rw [← rest]
  rfl

theorem shown_block (block : Block) (more : List Token) (lines : List Line)
    (shown : Shown (blockTokens block ++ more) lines) :
    ∃ name hash count content others, lines = name :: hash :: count :: (content ++ others) ∧
      (name.text = block.name.toList ∧ IsName block.name) ∧
      Numeral.Spells block.hash.toNat hash.text ∧ Numeral.Spells block.declared count.text ∧
      Shown (contentTokens block) content ∧ Shown more others := by
  cases shown with
  | @cons _ name _ _ nameSpelled shown =>
  cases shown with
  | @cons _ hash _ _ hashSpelled shown =>
  cases shown with
  | @cons _ count _ _ countSpelled shown =>
  obtain ⟨content, others, rfl, contentShown, othersShown⟩ := shown_append _ more _ shown
  refine ⟨name, hash, count, content, others, rfl, name_spelled _ _ nameSpelled, ?_, ?_,
    contentShown, othersShown⟩
  · cases hashSpelled with
    | number spells => exact spells
  · cases countSpelled with
    | declared spells => exact spells

theorem blocks_stop (blocks : List Block) (lines : List Line)
    (shown : Shown (blocks.flatMap blockTokens) lines) : Stops lines := by
  cases blocks with
  | nil =>
      cases shown
      exact ⟨nofun, nofun⟩
  | cons block blocks =>
      obtain ⟨name, _, _, _, _, rfl, ⟨named, isName⟩, -⟩ := shown_block block _ lines shown
      constructor
      · rintro text ⟨⟩
        rw [named]
        exact (Numeral.read_none_iff _).mpr isName.unlike
      · rintro text ⟨⟩
        rw [named]
        exact isName.unmarked

theorem length_declared_on (blocks : List Block) (lines : List Line)
    (shown : Shown (blocks.flatMap blockTokens) lines) :
    (declaredOn (blocks.flatMap blockTokens) lines).length = blocks.length := by
  induction blocks generalizing lines with
  | nil => rfl
  | cons block blocks ih =>
      rw [List.flatMap_cons] at shown ⊢
      obtain ⟨_, _, _, _, others, rfl, -, -, -, contentShown, othersShown⟩ :=
        shown_block block _ lines shown
      rw [declared_on_block block _ _ _ _ _ _ contentShown, List.length_cons,
        ih others othersShown, List.length_cons]

theorem blocks_parsed (blocks : List Block) (fuel : Nat) (enough : blocks.length ≤ fuel)
    (lines : List Line) (shown : Shown (blocks.flatMap blockTokens) lines) (last : Nat) :
    TextProfile.blocks fuel ⟨lines, last⟩ =
      ⟨entriesOf blocks (declaredOn (blocks.flatMap blockTokens) lines), .ok ()⟩ := by
  induction blocks generalizing fuel lines last with
  | nil =>
      cases shown
      cases fuel <;> rfl
  | cons block blocks ih =>
      rw [List.flatMap_cons] at shown ⊢
      obtain ⟨name, hash, count, content, others, rfl, ⟨named, isName⟩, hashSpelled, countSpelled,
        contentShown, othersShown⟩ := shown_block block _ lines shown
      cases fuel with
      | zero => cases enough
      | succ fuel =>
          obtain ⟨number, ran⟩ := block_parsed block name hash count content others named isName
            hashSpelled countSpelled contentShown (blocks_stop blocks others othersShown) name.number
          rw [TextProfile.blocks]
          dsimp only
          rw [ran]
          dsimp only
          rw [ih fuel (Nat.le_of_succ_le_succ enough) others othersShown,
            declared_on_block block _ _ _ _ _ _ contentShown]
          rfl

section Settled

variable {β : Type} (blocks : List Block) (numbers : List Nat) (outcome : Except Failure β)

def miscounted : List (Block × Nat) := (blocks.zip numbers).filter fun entry => !entry.1.counted

theorem failures_entries :
    Transcript.failures ⟨entriesOf blocks numbers, outcome⟩ =
      (miscounted blocks numbers).map fun entry => entry.1.mismatch entry.2 :=
  Transcript.failures_map_ite (fun entry : Block × Nat => entry.1.counted) _ _ _ outcome

variable (same : numbers.length = blocks.length)

include same

theorem values_entries :
    Transcript.values ⟨entriesOf blocks numbers, outcome⟩ =
      (blocks.filter Block.counted).map Block.record := by
  have kept := Transcript.values_map_ite (fun entry : Block × Nat => entry.1.counted)
    (fun entry => entry.1.record) (fun entry => entry.1.mismatch entry.2) (blocks.zip numbers) outcome
  have firsts : (blocks.zip numbers).map Prod.fst = blocks :=
    List.map_fst_zip (Nat.le_of_eq same.symm)
  have filtered : ((blocks.zip numbers).filter fun entry => entry.1.counted).map
      (fun entry => entry.1.record) = (blocks.filter Block.counted).map Block.record := by
    conv_rhs => rw [← firsts, List.filter_map, List.map_map]
    rfl
  exact kept.trans filtered

theorem all_counted (none : miscounted blocks numbers = []) :
    blocks.filter Block.counted = blocks := by
  rw [List.filter_eq_self]
  intro block member
  obtain ⟨index, small, rfl⟩ := List.mem_iff_getElem.mp member
  have paired : (blocks[index], numbers[index]) ∈ blocks.zip numbers := by
    rw [← List.getElem_zip (h := by rw [List.length_zip]; omega)]
    exact List.getElem_mem _
  simpa using List.filter_eq_nil_iff.mp none _ paired

end Settled

section Rendering

variable {flags : List Flag} {blocks : List Block} {rows : List Row} {text : List Char}

theorem shown_of_shown_at (entries : List (Token × Nat)) (lines : List Line)
    (shown : List.Forall₂ ShownAt entries lines) :
    Shown (entries.map Prod.fst) lines ∧
      declaredAt entries = declaredOn (entries.map Prod.fst) lines := by
  have aligned : entries = (entries.map Prod.fst).zip (lines.map Line.number) := by
    induction shown with
    | nil => rfl
    | @cons entry line _ _ own _ ih =>
        rw [List.map_cons, List.map_cons, List.zip_cons_cons, ← ih, own.2]
  refine ⟨?_, congrArg declaredAt aligned⟩
  rw [Shown, List.forall₂_map_left_iff]
  exact shown.imp fun _ _ both => both.1

theorem tokens_at_rows (rows : List Row) :
    (tokensAt rows).map Prod.fst = rows.filterMap Row.token := by
  rw [tokensAt, List.map_filterMap]
  conv_rhs => rw [← List.zipIdx_map_fst 1 rows, List.filterMap_map]
  apply List.filterMap_congr
  rintro ⟨row, number⟩ -
  change (row.token.map fun token => (token, number)).map Prod.fst = row.token
  cases row.token <;> rfl

theorem rendered_transcript (rendered : Renders flags blocks rows text) :
    (declaredLines rows).length = blocks.length ∧ ∃ body : Script,
      header .plain 0 (Line.ofText text) = .ok (flags.foldl Flag.set .plain, body) ∧
      TextProfile.blocks body.lines.length body =
        ⟨entriesOf blocks (declaredLines rows), .ok ()⟩ := by
  obtain ⟨shown, numbers⟩ := shown_of_shown_at _ _ (rendered_lines rendered)
  rw [tokens_at_rows, rendered.tokens] at shown numbers
  obtain ⟨top, rest, lines, topShown, restShown⟩ := shown_append _ _ _ shown
  have unflagged : declaredOn (flags.map .flag) top = [] := declared_on_nil _ _ (by simp)
  rw [lines, declared_on_append _ _ _ _ topShown, unflagged, List.nil_append,
    ← declaredLines] at numbers
  have enough : blocks.length ≤ rest.length := by
    have bound := length_flat_map_le blocks blockTokens fun _ _ => Nat.zero_lt_succ _
    rwa [restShown.length_eq] at bound
  obtain ⟨number, headerRan⟩ := header_flags flags .plain top rest topShown
    (blocks_stop blocks rest restShown).unmarked 0
  rw [numbers, lines]
  exact ⟨length_declared_on blocks rest restShown, ⟨rest, number⟩, headerRan,
    blocks_parsed blocks rest.length enough rest restShown number⟩

end Rendering

def headed (flags : List Flag) : Profile :=
  { Profile.empty .text with variant := flags.foldl Flag.set .plain }

/-- What is read from a rendering, whatever its layout. Each block has one line that declares its
number of counters, and strict reading fails on the first of them that is wrong. -/
theorem rendering_parsed (flags : List Flag) (blocks : List Block) (rows : List Row)
    (text : String) (rendered : Renders flags blocks rows text.toList) :
    (declaredLines rows).length = blocks.length ∧
    (parse .strict (Utf8.bytes text) = match miscounted blocks (declaredLines rows) with
      | [] => .ok { headed flags with records := blocks.map Block.record }
      | (block, line) :: _ => .error (block.mismatch line)) ∧
    parse .bestEffort (Utf8.bytes text) = .ok { headed flags with
      records := (blocks.filter Block.counted).map Block.record
      skipped := (miscounted blocks (declaredLines rows)).map fun entry =>
        .ofFailure (entry.1.mismatch entry.2) } := by
  obtain ⟨same, body, headerRan, blocksRan⟩ := rendered_transcript rendered
  have read : lines (Utf8.bytes text) = .ok (Line.ofText text.toList) := by
    rw [lines, Utf8.read_bytes]
  have transcript : TextProfile.transcript (Utf8.bytes text) = .ok
      (flags.foldl Flag.set .plain, ⟨entriesOf blocks (declaredLines rows), .ok ()⟩) := by
    rw [TextProfile.transcript, read]
    change (header .plain 0 (Line.ofText text.toList) >>= _) = _
    rw [headerRan]
    change Except.ok (_, TextProfile.blocks body.lines.length body) = _
    rw [blocksRan]
  have settled : ∀ policy, parse policy (Utf8.bytes text) =
      (Transcript.settle policy ⟨entriesOf blocks (declaredLines rows), .ok ()⟩).map fun gathered =>
        { headed flags with records := gathered.1, skipped := gathered.2 } := by
    intro policy
    rw [parse, transcript]
    rfl
  refine ⟨same, ?_, ?_⟩
  · rw [settled, Transcript.settle_strict, failures_entries, values_entries _ _ _ same]
    cases wrong : miscounted blocks (declaredLines rows) with
    | nil =>
        rw [all_counted blocks _ same wrong]
        rfl
    | cons first others => rfl
  · rw [settled, Transcript.settle_best_effort, failures_entries, values_entries _ _ _ same]
    rw [List.map_map]
    rfl

section Mixed

def flagRow : Row := ⟨some (.flag .ir), ['\t'] ++ [':', 'I', 'r'] ++ [' ']⟩

def mixedRows : List Row := [⟨none, [' '] ++ '#' :: [' ', ':', 'f', 'e']⟩,
  ⟨some (.name "main"), [] ++ "main".toList ++ []⟩,
  ⟨some (.number 31), [' '] ++ ['0', 'X', '+', '1', 'f'] ++ []⟩,
  ⟨some (.declared 3), [] ++ ['+', '0', '3'] ++ []⟩,
  ⟨none, ['\t', ' ']⟩,
  ⟨some (.number 10), [] ++ ['0', 'x', 'A'] ++ []⟩,
  ⟨some (.number 5), [] ++ ['5'] ++ []⟩,
  ⟨some (.name "f #:"), [] ++ "f #:".toList ++ ['\r']⟩,
  ⟨some (.number 2), [] ++ ['2'] ++ []⟩,
  ⟨some (.declared 1), [] ++ ['1'] ++ []⟩,
  ⟨some (.number 7), [] ++ ['7'] ++ []⟩,
  ⟨some .marker, [] ++ valueMarker.toList ++ []⟩,
  ⟨some (.number 1), [] ++ ['1'] ++ []⟩,
  ⟨some (.number 1), [] ++ ['1'] ++ []⟩,
  ⟨some (.number 1), [] ++ ['1'] ++ []⟩,
  ⟨some (.number 1), [] ++ ['1'] ++ []⟩,
  ⟨some (.observation ⟨16, 4⟩),
    [] ++ (['0', 'x', '1', '0'] ++ [' '] ++ ':' :: (['\t'] ++ ['+', '4'])) ++ []⟩]

def mixedText : String :=
  String.ofList (flagRow.text ++ '\r' :: '\n' :: ['\n'].intercalate (mixedRows.map Row.text))

def shortBlock : Block := ⟨"main", 31, 3, [10, 5], none⟩

def sitedBlock : Block := ⟨"f #:", 2, 1, [7], some [(.memOpSize, [[⟨16, 4⟩]])]⟩

theorem mixed_rows_printed : ∀ row ∈ flagRow :: mixedRows, row.Printed := by
  have bare : Blank [] := nofun
  have number : ∀ (n : Nat) (text : List Char), Numeral.Spells n text →
      Row.Printed ⟨some (.number n), [] ++ text ++ []⟩ :=
    fun n text spells => .token bare (.number spells) bare
  simp only [mixedRows, List.forall_mem_cons]
  refine ⟨.token ?_ (.flag .ir ['I', 'r'] ?_) ?_, .ignored (.comment ?_ _),
    .token bare (.name ?_) bare, .token ?_ (.number ?_) bare, .token bare (.declared ?_) bare,
    .ignored (.blank ?_), number 10 _ ?_, number 5 _ ?_, .token bare (.name ?_) ?_, number 2 _ ?_,
    .token bare (.declared ?_) bare, number 7 _ ?_, .token bare .marker bare, number 1 _ ?_,
    number 1 _ ?_, number 1 _ ?_, number 1 _ ?_, .token bare (.observation ?_ ?_ ?_ ?_) bare, nofun⟩
  -- What is left are blanks, spelled numbers and names.
  all_goals decide +kernel

theorem mixed_renders : Renders [.ir] [shortBlock, sitedBlock] (flagRow :: mixedRows)
    mixedText.toList where
  tokens := by decide +kernel
  printed := mixed_rows_printed
  unbroken := by decide +kernel
  joined := by
    rw [mixedText, String.toList_ofList]
    exact .carriageReturn flagRow.text (Line.joins_line_feeds _ _)

theorem rendering_parsed_mixed :
    Renders [.ir] [shortBlock, sitedBlock] (flagRow :: mixedRows) mixedText.toList ∧
    parse .strict (Utf8.bytes mixedText) = .error (shortBlock.mismatch 5) ∧
    parse .bestEffort (Utf8.bytes mixedText) = .ok { Profile.empty .text with
      variant := ⟨true, false, false⟩
      records := [⟨"f #:", 2, [7], some ⟨[], [[⟨16, 4⟩]]⟩⟩]
      skipped := [.ofFailure (shortBlock.mismatch 5)] } := by
  obtain ⟨-, strict, bestEffort⟩ := rendering_parsed _ _ _ _ mixed_renders
  have wrong : miscounted [shortBlock, sitedBlock] (declaredLines (flagRow :: mixedRows)) =
      [(shortBlock, 5)] := by decide +kernel
  rw [wrong] at strict bestEffort
  exact ⟨mixed_renders, strict, bestEffort⟩

end Mixed

end ExecCounts.TextProfile
