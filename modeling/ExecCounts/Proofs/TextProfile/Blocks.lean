import ExecCounts.Proofs.TextProfile.Scan
import ExecCounts.Proofs.Transcript

set_option autoImplicit false

namespace ExecCounts.TextProfile

def readsAsNumber (name : String) : Bool := (Numeral.read? name.toList).isSome

/-- The counters of a function without stored values end at the next line that is no number, so they
swallow the name of the next function if it is one. -/
def overruns (record : FunctionRecord) (following : List FunctionRecord) : Bool :=
  record.pruned.values.isNone && following.head?.any fun next => readsAsNumber next.name

def runsOn : List FunctionRecord → Bool
  | [] => false
  | record :: following => overruns record following || runsOn following

structure Readable (record : FunctionRecord) : Prop where
  writable : isWritableName record.name.toList = true
  counters : record.counters.length < UInt64.size
  values : ∀ values ∈ record.pruned.values, Countable values

variable {rest : List (List Char)}

theorem body_unmarked (records : List FunctionRecord)
    (readable : ∀ record ∈ records, Readable record) : NoMark (bodyTexts records) := by
  intro text first
  cases records with
  | nil => cases first
  | cons record records =>
      cases first
      exact (kept_writable _ (readable record List.mem_cons_self).writable).2

section Counters

theorem counters_cons (text : List Char) (n : UInt64) (number : Numeral.read? text = some n)
    (script : Script) (left : script.lines.map Line.text = text :: rest) :
    ∃ middle : Script, middle.lines.map Line.text = rest ∧ ∀ numbers after,
      counters middle = .ok numbers after → counters script = .ok (n :: numbers) after := by
  obtain ⟨lines, last⟩ := script
  cases lines with
  | nil => cases left
  | cons line lines =>
      obtain ⟨same, left⟩ := List.cons.inj left
      exact ⟨⟨lines, line.number⟩, left, fun numbers after ran =>
        counters_number line lines last n (same ▸ number) numbers after ran⟩

theorem counters_append (values : List Count) (script : Script)
    (left : script.lines.map Line.text = counterTexts values ++ rest) :
    ∃ middle : Script, middle.lines.map Line.text = rest ∧ ∀ numbers after,
      counters middle = .ok numbers after → counters script = .ok (values ++ numbers) after := by
  induction values generalizing script with
  | nil => exact ⟨script, left, fun _ _ ran => ran⟩
  | cons value values ih =>
      obtain ⟨next, nextLeft, first⟩ :=
        counters_cons _ value (Numeral.read_decimal_word value) script left
      obtain ⟨middle, middleLeft, others⟩ := ih next nextLeft
      exact ⟨middle, middleLeft, fun numbers after ran => first _ _ (others numbers after ran)⟩

theorem record_swallowed (record : FunctionRecord) (following : List FunctionRecord)
    (readable : Readable record) (n : UInt64) (number : Numeral.read? record.name.toList = some n)
    (script : Script) (left : script.lines.map Line.text = bodyTexts (record :: following)) :
    ∃ middle : Script,
      middle.lines.map Line.text = valueTexts record.pruned.values ++ bodyTexts following ∧
        ∀ numbers after, counters middle = .ok numbers after →
          ∃ more, counters script = .ok (n :: more) after := by
  have shape : bodyTexts (record :: following) = record.name.toList ::
      decimalText record.hash.toNat :: decimalText record.counters.length ::
        (counterTexts record.counters ++
          (valueTexts record.pruned.values ++ bodyTexts following)) := by
    rw [bodyTexts, List.flatMap_cons]
    simp [recordTexts, blockTexts, bodyTexts]
  rw [shape] at left
  obtain ⟨script₁, left₁, nameRan⟩ := counters_cons _ n number script left
  obtain ⟨script₂, left₂, hashRan⟩ :=
    counters_cons _ _ (Numeral.read_decimal_word record.hash) script₁ left₁
  obtain ⟨script₃, left₃, countRan⟩ :=
    counters_cons _ _ (Numeral.read_decimal _ readable.counters) script₂ left₂
  obtain ⟨middle, middleLeft, countersRan⟩ := counters_append record.counters script₃ left₃
  exact ⟨middle, middleLeft, fun numbers after ran =>
    ⟨_, nameRan _ _ (hashRan _ _ (countRan _ _ (countersRan _ _ ran)))⟩⟩

theorem counters_run (records : List FunctionRecord)
    (readable : ∀ record ∈ records, Readable record) (script : Script)
    (left : script.lines.map Line.text = bodyTexts records) :
    ∃ numbers middle values after, counters script = .ok numbers middle ∧
      optionalValues middle = .ok values after ∧
        ∀ record ∈ records.head?, readsAsNumber record.name = true → numbers ≠ [] := by
  induction records generalizing script with
  | nil =>
      have stopped := counters_stop script (by rw [left]; nofun)
      have nothing : Takes optionalValues (valueTexts none) [] none :=
        optional_values_takes none nofun fun _ => nofun
      obtain ⟨after, ran, -⟩ := nothing script left
      exact ⟨[], script, none, after, stopped, ran, nofun⟩
  | cons record records ih =>
      have first := readable record List.mem_cons_self
      cases number : Numeral.read? record.name.toList with
      | none =>
          have stopped := counters_stop script (by
            rw [left]
            rintro text ⟨⟩
            exact number)
          obtain ⟨after, ran, -⟩ := optional_values_takes none nofun
            (fun _ => body_unmarked _ readable) script left
          refine ⟨[], script, none, after, stopped, ran, ?_⟩
          rintro _ ⟨⟩ reads
          rw [readsAsNumber, number] at reads
          cases reads
      | some n =>
          -- The name is a number like the lines behind it, so that all of them are taken.
          obtain ⟨behind, behindLeft, swallowed⟩ :=
            record_swallowed record records first n number script left
          cases kept : record.pruned.values with
          | some values =>
              rw [kept] at behindLeft
              have stopped := counters_stop behind (by
                rw [behindLeft]
                rintro text ⟨⟩
                decide)
              obtain ⟨more, ran⟩ := swallowed _ _ stopped
              obtain ⟨after, valuesRan, -⟩ := optional_values_takes (some values)
                (fun stored same => first.values stored (kept.trans same)) nofun behind behindLeft
              exact ⟨_, behind, some values, after, ran, valuesRan, fun _ _ _ => nofun⟩
          | none =>
              rw [kept] at behindLeft
              -- Without values, the counters run on into the next function.
              obtain ⟨numbers, middle, values, after, ran, valuesRan, -⟩ :=
                ih (fun other member => readable other (List.mem_cons_of_mem _ member)) behind behindLeft
              obtain ⟨more, allRan⟩ := swallowed _ _ ran
              exact ⟨_, middle, values, after, allRan, valuesRan, fun _ _ _ => nofun⟩

end Counters

theorem block_run (record : FunctionRecord) (readable : Readable record) (line : Line)
    (named : line.text = record.name.toList) (script : Script)
    (left : script.lines.map Line.text =
      decimalText record.hash.toNat :: decimalText record.counters.length :: rest) :
    ∃ middle : Script, middle.lines.map Line.text = rest ∧ ∀ numbers counted values after,
      counters middle = .ok numbers counted → optionalValues counted = .ok values after →
        ∃ failure : Failure, failure.kind = .counterCountMismatch ∧ block line script =
          .ok (if numbers.length = record.counters.length then
            .ok ⟨record.name, record.hash, numbers, values⟩ else .error failure) after := by
  obtain ⟨_ | ⟨hashLine, _ | ⟨countLine, lines⟩⟩, last⟩ := script
  · cases left
  · cases (List.cons.inj left).2
  obtain ⟨hashText, left⟩ := List.cons.inj left
  obtain ⟨countText, left⟩ := List.cons.inj left
  refine ⟨⟨lines, countLine.number⟩, left, ?_⟩
  intro numbers counted values after countersRan valuesRan
  have unmarked : line.text.head? ≠ some ':' := by
    rw [named]
    exact (kept_writable _ readable.writable).2
  have count : Numeral.read? countLine.text = some (UInt64.ofNat record.counters.length) := by
    rw [countText]
    exact Numeral.read_decimal _ readable.counters
  have hashRan := expect_number_run "a function hash" record.hash.toNat hashLine (countLine :: lines)
    last (hashText ▸ word_spells record.hash)
  rw [block, if_neg unmarked]
  dsimp only
  rw [run_bind_of_ok hashRan, UInt64.ofNat_toNat, run_bind_of_ok (expect_run _ _ _ _), count]
  dsimp only
  rw [run_bind_of_ok countersRan, run_bind_of_ok valuesRan, UInt64.toNat_ofNat_of_lt' readable.counters, named,
    String.ofList_toList]
  -- A wrong number of counters is a failure of this function alone.
  by_cases same : numbers.length = record.counters.length
  · rw [if_pos same]
    exact ⟨.because .counterCountMismatch "", rfl, by rw [if_pos same]; rfl⟩
  · rw [if_neg same]
    exact ⟨_, rfl, by rw [if_neg same]; rfl⟩

theorem block_takes (record : FunctionRecord) (readable : Readable record) (line : Line)
    (named : line.text = record.name.toList) (unmarked : NoMark rest)
    (stops : record.pruned.values = none → ∀ text ∈ rest.head?, Numeral.read? text = none) :
    Takes (block line) (blockTexts record) rest (.ok record.pruned) := by
  intro script left
  rw [blockTexts, List.cons_append, List.cons_append, List.append_assoc] at left
  obtain ⟨start, startLeft, ran⟩ := block_run record readable line named script left
  obtain ⟨middle, middleLeft, counted⟩ := counters_append record.counters start startLeft
  have stopped : counters middle = .ok [] middle := by
    apply counters_stop
    rw [middleLeft]
    cases kept : record.pruned.values with
    | none => exact stops kept
    | some values =>
        rintro text ⟨⟩
        decide
  obtain ⟨after, valuesRan, afterLeft⟩ := optional_values_takes record.pruned.values readable.values
    (fun _ => unmarked) middle middleLeft
  obtain ⟨failure, -, blockRan⟩ := ran _ _ _ _ (counted _ _ stopped) valuesRan
  rw [List.append_nil, if_pos rfl] at blockRan
  exact ⟨after, blockRan, afterLeft⟩

theorem block_runs_on (record : FunctionRecord) (readable : Readable record) (line : Line)
    (named : line.text = record.name.toList) (following : List FunctionRecord)
    (others : ∀ other ∈ following, Readable other) (overrun : overruns record following = true)
    (script : Script)
    (left : script.lines.map Line.text = blockTexts record ++ bodyTexts following) :
    ∃ (failure : Failure) (after : Script), failure.kind = .counterCountMismatch ∧
      block line script = .ok (.error failure) after := by
  rw [overruns, Bool.and_eq_true, Option.isNone_iff_eq_none, Option.any_eq_true] at overrun
  obtain ⟨bare, next, isNext, reads⟩ := overrun
  rw [blockTexts, bare, valueTexts, List.append_nil, List.cons_append, List.cons_append] at left
  obtain ⟨start, startLeft, ran⟩ := block_run record readable line named script left
  obtain ⟨middle, middleLeft, counted⟩ := counters_append record.counters start startLeft
  obtain ⟨numbers, stop, values, after, countersRan, valuesRan, some⟩ :=
    counters_run following others middle middleLeft
  obtain ⟨failure, kind, blockRan⟩ := ran _ _ _ _ (counted _ _ countersRan) valuesRan
  have more : (record.counters ++ numbers).length ≠ record.counters.length := by
    have positive := List.length_pos_iff.mpr (some next isNext reads)
    rw [List.length_append]
    omega
  rw [if_neg more] at blockRan
  exact ⟨failure, after, kind, blockRan⟩

theorem body_stops (record : FunctionRecord) (following : List FunctionRecord)
    (contained : overruns record following = false) (bare : record.pruned.values = none) :
    ∀ text ∈ (bodyTexts following).head?, Numeral.read? text = none := by
  intro text first
  cases following with
  | nil => cases first
  | cons next following =>
      cases first
      rw [overruns, bare] at contained
      exact Option.isNone_iff_eq_none.mp (by simpa [readsAsNumber] using contained)

theorem blocks_read (records : List FunctionRecord) (readable : ∀ record ∈ records, Readable record)
    (fuel : Nat) (enough : records.length ≤ fuel) (script : Script)
    (left : script.lines.map Line.text = bodyTexts records) :
    if runsOn records then ∃ failure : Failure, failure.kind = .counterCountMismatch ∧
      (blocks fuel script).settle .strict = .error failure
    else (blocks fuel script).settle .strict = .ok (records.map FunctionRecord.pruned, []) := by
  induction records generalizing fuel script with
  | nil =>
      obtain ⟨lines, last⟩ := script
      cases lines with
      | cons line lines => cases left
      | nil => cases fuel <;> rfl
  | cons record records ih =>
      obtain ⟨lines, last⟩ := script
      have first := readable record List.mem_cons_self
      have others := fun other member => readable other (List.mem_cons_of_mem record member)
      cases fuel with
      | zero => cases enough
      | succ fuel =>
          cases lines with
          | nil => cases left
          | cons line lines =>
              obtain ⟨named, left⟩ := List.cons.inj left
              rw [blocks]
              dsimp only
              -- Reading stops for good at the first function whose counters run on.
              cases overrun : overruns record records with
              | true =>
                  obtain ⟨failure, after, kind, ran⟩ :=
                    block_runs_on record first line named records others overrun
                      ⟨lines, line.number⟩ left
                  rw [runsOn, overrun, ran]
                  exact ⟨failure, kind, Transcript.settle_cons_error failure _⟩
              | false =>
                  obtain ⟨after, ran, afterLeft⟩ := block_takes record first line named
                    (body_unmarked records others) (body_stops record records overrun)
                    ⟨lines, line.number⟩ left
                  have rest := ih others fuel (Nat.le_of_succ_le_succ enough) after afterLeft
                  rw [runsOn, overrun, ran, Bool.false_or]
                  dsimp only
                  by_cases runs : runsOn records
                  · rw [if_pos runs] at rest ⊢
                    obtain ⟨failure, kind, settled⟩ := rest
                    exact ⟨failure, kind, Transcript.settle_cons_ok_error _ _ _ _ settled⟩
                  · rw [if_neg runs] at rest ⊢
                    exact Transcript.settle_cons_ok _ _ _ _ _ rest

end ExecCounts.TextProfile
