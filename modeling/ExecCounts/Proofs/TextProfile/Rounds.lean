import ExecCounts.Proofs.Rounds
import ExecCounts.Proofs.TextProfile.Worth

set_option autoImplicit false

namespace ExecCounts.TextProfile

namespace Counting

open ExecCounts.Counting

def site : Counting Script Site := do
  let count ← expectNumber "the number of values"
  loop count.toNat observation

def kind : Counting Script (ValueKind × List Site) := do
  let line ← expect "a value kind"
  match (Numeral.read? line.text).bind fun n => ValueKind.ofNumber? n.toNat with
  | none => (throw (malformed "a value kind" line) : Scan (ValueKind × List Site))
  | some kind =>
      let count ← expectNumber "the number of value sites"
      return (kind, ← loop count.toNat site)

def valueProfile : Counting Script ValueProfile := do
  let count ← expectNumber "the number of value kinds"
  return (← loop count.toNat kind).foldl addSites .empty

def optionalValues : Counting Script (Option ValueProfile) := do
  match (← (get : Scan Script)).lines with
  | line :: _ =>
      if String.ofList line.text = valueMarker then
        let _ ← expect "a value profile"
        return some (← valueProfile)
      else return none
  | [] => return none

def counters : Counting Script (List UInt64) := fun script =>
  let (numbers, after) := takeNumbers script.lines script.last
  ⟨.ok numbers after, numbers.length⟩

def block (line : Line) : Counting Script (Except Failure FunctionRecord) := do
  if line.text.head? = some ':' then (throw (malformed "a function name" line) : Scan PUnit)
  let name := String.ofList line.text
  let hash ← expectNumber "a function hash"
  let countLine ← expect "the number of counters"
  match Numeral.read? countLine.text with
  | none => (throw (malformed "a counter count" countLine) : Scan (Except Failure FunctionRecord))
  | some declared =>
      let counters ← counters
      let values ← optionalValues
      if counters.length = declared.toNat then return .ok { name, hash, counters, values }
      else
        let detail := "declared " ++ Numeral.decimal declared.toNat ++ " counters, found " ++
          Numeral.decimal counters.length
        let failure := (Failure.because .counterCountMismatch detail).inFunction ⟨name, hash⟩
        return .error (failure.atLine countLine.number)

def nextBlock (script : Script) : Option (Counted (Transcript FunctionRecord Script)) :=
  match script.lines with
  | [] => none
  | line :: rest =>
      let turn := block line ⟨rest, line.number⟩
      match turn.result with
      | .ok entry after => some ⟨.cons entry (.done after), turn.rounds⟩
      | .error failure _ => some ⟨.stop failure, turn.rounds⟩

variable {credit : Nat}

theorem site_pays : Pays Script.left site TextProfile.site credit fun _ => credit + 1 := by
  apply bind_pays (lift_pays (expect_number_covers _))
  intro count
  exact loop_pays (fun _ => lift_pays observation_covers) count.toNat

-- The first of 2^64 - 1 values is missing.
example : (site ⟨[⟨1, "18446744073709551615".toList⟩], 0⟩).rounds = 1 := by decide +kernel

theorem kind_pays : Pays Script.left kind TextProfile.kind credit fun _ => credit + 1 := by
  apply bind_pays (lift_pays (expect_covers _))
  intro line
  cases (Numeral.read? line.text).bind fun n => ValueKind.ofNumber? n.toNat with
  | none => exact lift_pays (throw_covers _ _)
  | some found =>
      apply bind_pays (lift_pays (expect_number_covers _))
      intro count
      apply bind_pays (loop_pays (fun _ => site_pays) _)
      intro sites
      exact pure_pays (Nat.le_succ _)

theorem value_profile_pays :
    Pays Script.left valueProfile TextProfile.valueProfile credit fun _ => credit := by
  apply bind_pays (lift_pays (expect_number_covers _))
  intro count
  apply bind_pays (loop_pays (fun _ => kind_pays) _)
  intro listing
  exact pure_pays (Nat.le_succ _)

theorem optional_values_pays :
    Pays Script.left optionalValues TextProfile.optionalValues credit fun _ => credit := by
  apply bind_pays (lift_pays get_covers)
  intro script
  cases script.lines with
  | nil => exact pure_pays (Nat.le_refl _)
  | cons line rest =>
      dsimp only
      split
      · apply bind_pays (lift_pays (expect_covers _))
        intro marker
        apply bind_pays value_profile_pays
        intro values
        exact pure_pays (Nat.le_succ _)
      · exact pure_pays (Nat.le_refl _)

theorem counters_pays : Pays Script.left counters TextProfile.counters credit fun _ => credit where
  same _ := rfl
  passed script found after ran := by
    cases ran
    have all := take_numbers_length script.lines script.last
    change (takeNumbers script.lines script.last).1.length + _ + credit ≤ script.lines.length + credit
    rw [Script.left]
    omega
  failed script failure after ran := by cases ran

theorem block_pays (line : Line) :
    Pays Script.left (block line) (TextProfile.block line) 0 fun _ => 0 := by
  rw [block, TextProfile.block]
  dsimp only
  split
  · exact thrown_pays _ _ _ _
  · apply bind_pays (lift_pays (expect_number_covers _))
    intro hash
    apply bind_pays (lift_pays (expect_covers _))
    intro countLine
    cases Numeral.read? countLine.text with
    | none => exact lift_pays (throw_covers _ _)
    | some declared =>
        apply bind_pays counters_pays
        intro found
        apply bind_pays optional_values_pays
        intro values
        split
        · exact pure_pays (Nat.zero_le _)
        · exact pure_pays (Nat.zero_le _)

theorem next_block_paid (script : Script) (turn : Counted (Transcript FunctionRecord Script))
    (begun : nextBlock script = some turn) : PaysTurn Script.left 1 script turn := by
  obtain ⟨lines, last⟩ := script
  cases lines with
  | nil => cases begun
  | cons line rest =>
      rw [nextBlock] at begun
      dsimp only at begun
      rw [(block_pays line).same] at begun
      cases ran : TextProfile.block line ⟨rest, line.number⟩ with
      | error failure after =>
          rw [ran] at begun
          cases begun
          have spent : _ ≤ rest.length + 0 := (block_pays line).failed _ failure after ran
          constructor
          · intro after ended
            cases ended
          · rw [Script.left, List.length_cons]
            dsimp only
            omega
      | ok entry after =>
          rw [ran] at begun
          cases begun
          have spent : _ + 0 ≤ rest.length + 0 := (block_pays line).passed _ entry after ran
          rw [Script.left] at spent
          constructor
          · intro final ended
            cases ended
            rw [Script.left, Script.left, List.length_cons]
            dsimp only
            omega
          · rw [Script.left, List.length_cons]
            dsimp only
            omega

theorem blocks_succ (fuel : Nat) (script : Script) : blocks (fuel + 1) script =
    (nextBlock script).elim (.done ()) fun turn => turn.result.andThen (blocks fuel) := by
  obtain ⟨lines, last⟩ := script
  cases lines with
  | nil => rfl
  | cons line rest =>
      rw [blocks, nextBlock]
      dsimp only
      rw [(block_pays line).same]
      cases TextProfile.block line ⟨rest, line.number⟩ with
      | error failure after => rfl
      | ok entry after => rfl

end Counting

theorem transcript_loops {data : Bytes} {variant : Variant}
    {functions : Transcript FunctionRecord Unit}
    (read : transcript data = .ok (variant, functions)) : ∃ body rounds,
      opening data = .ok (variant, body) ∧ Loops Counting.nextBlock body ⟨functions, rounds⟩ ∧
        rounds ≤ lineCount data + 1 := by
  obtain ⟨body, opened, rfl⟩ := transcript_opening read
  have finished : ∀ script : Script, script.left = 0 → Counting.nextBlock script = none := by
    intro script nothing
    rw [Counting.nextBlock, List.length_eq_zero_iff.mp nothing]
  obtain ⟨rounds, loops, few⟩ := loops_of_paid (fun _ => rfl) Counting.blocks_succ finished
    Counting.next_block_paid body.lines.length body (Nat.le_refl _)
  have within := opening_left opened
  exact ⟨body, rounds, opened, loops, by omega⟩

end ExecCounts.TextProfile
