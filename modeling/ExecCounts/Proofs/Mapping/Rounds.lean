import ExecCounts.Proofs.Deflate.Expansion
import ExecCounts.Proofs.Mapping.Worth

set_option autoImplicit false

namespace ExecCounts

open Read

theorem Chunk.expand_length {size : Nat} {stream payload : Bytes}
    (expanded : Chunk.expand size stream = .ok payload) : payload.length ≤ 2064 * stream.length := by
  rw [Chunk.expand] at expanded
  cases complete : Zlib.inflate stream with
  | complete output =>
      rw [complete] at expanded
      dsimp only at expanded
      split at expanded
      · cases expanded
        exact Zlib.inflate_length _ _ complete
      · cases expanded
  | cut output =>
      rw [complete] at expanded
      dsimp only at expanded
      split at expanded <;> cases expanded
  | corrupt =>
      rw [complete] at expanded
      cases expanded

theorem Chunk.read_covers {credit : Nat} : Covers (Cursor.supply 2064) Chunk.read credit
    fun payload => credit + payload.length := by
  apply bind_covers (local_covers position_local)
  intro start
  apply bind_covers (local_covers uleb_local)
  intro size
  apply bind_covers (local_covers uleb_local)
  intro compressedSize
  split
  · apply (bytes_covers _).mono
    intro payload
    omega
  · apply bind_covers (bytes_covers _)
    intro stream
    -- A compressed byte pays for everything that it can expand to.
    cases expanded : Chunk.expand size.toNat stream with
    | ok payload =>
        have few := Chunk.expand_length expanded
        apply pure_covers
        omega
    | error detail => exact throw_covers _ _

namespace Section.Counting

open ExecCounts.Counting

def readRegions (scope : Scope) (fileId : UInt32) :
    Nat → UInt32 → Nat → Counting Cursor (List Region × Nat)
  | 0, _, budget => pure ([], budget)
  | n + 1, line, budget => do
      round
      let (region, budget) ← readRegion scope fileId line budget
      let (regions, budget) ← readRegions scope fileId n region.start.line budget
      return (region :: regions, budget)

def readFiles (scope : Scope) : Nat → Nat → Nat → Counting Cursor (List Region)
  | 0, _, _ => pure []
  | n + 1, fileId, budget => do
      round
      let count ← Read.uleb
      let (regions, budget) ← readRegions scope (UInt32.ofNat fileId) count.toNat 0 budget
      return regions ++ (← readFiles scope n (fileId + 1) budget)

def readFunction (layout : MappingLayout) (filenames : List String) :
    Counting Cursor (List String × List Region) := do
  let dataSize := (← (get : Read Cursor)).data.length
  let fileCount ← Read.uleb
  let files ← loop fileCount.toNat (readFilename filenames)
  let exprCount ← Read.uleb
  let table ← loop exprCount.toNat readOperands
  let scope : Scope := ⟨layout, table.toArray, files.length⟩
  let regions ← readFiles scope files.length 0 (ExprTable.budget dataSize)
  (do
    if !(← Read.atEnd) then
      throw ((Failure.because .invalidEncoding "trailing bytes after the regions").atOffset
        (← Read.position))
    return (files, regions) : Read (List String × List Region))

def readPayload (count : Nat) : Counting Cursor (List String) := do
  let names ← loop count Read.ulebText
  (do
    if !(← Read.atEnd) then
      throw (.because .invalidEncoding "trailing bytes after the filenames")
    return names : Read (List String))

def readNames (layout : MappingLayout) : Counting Cursor (List String) := do
  let count := (← Read.uleb).toNat
  let names ←
    if layout.compressedFilenames then do
      let payload := Cursor.little (← Chunk.read)
      ofExcept (read payload (readPayload count))
    else loop count Read.ulebText
  (do
    if !(← Read.atEnd) then
      throw (.because .invalidEncoding "filenames are shorter than the declared size")
    return names : Read (List String))

def readPreamble : Counting Cursor Preamble := do
  let start ← Read.position
  let order ← readMagic
  (modify (·.withOrder order) : Read Unit)
  let tag ← Read.u32
  let version ← Read.ofExcept
    ((Version.require (UInt64.ofNat tag.toNat)).mapError (·.atOffset (start + 4)))
  let recordCount ← Read.u32
  let size ← Read.u32
  let tableOffset ← Read.position
  let table := Cursor.little (← Read.bytes size.toNat)
  let layout := version.mappingLayout
  let names ← ofExcept ((read table (readNames layout)).map (·.mapError (·.atOffset tableOffset)))
  Read.align 8
  return { version, recordCount := recordCount.toNat, filenames := resolveNames layout names }

def decodeRounds (preamble : Preamble) (record : Record) : Nat :=
  (read record.body (readFunction preamble.version.mappingLayout preamble.filenames)).rounds

def records (preamble : Preamble) : Nat → Cursor → Counted (Transcript FunctionMapping Cursor)
  | 0, cursor => ⟨.done cursor, 0⟩
  | n + 1, cursor =>
      match readRecord preamble.version.mappingLayout cursor with
      | .error failure _ => ⟨.stop failure, 1⟩
      | .ok record rest =>
          let others := records preamble n rest
          ⟨.cons (decodeRecord preamble record) others.result,
            1 + decodeRounds preamble record + others.rounds⟩

def transcript (cursor : Cursor) : Counted (Transcript FunctionMapping Cursor) :=
  match (readPreamble cursor).result with
  | .error failure _ => ⟨.stop failure, (readPreamble cursor).rounds⟩
  | .ok preamble rest =>
      let body := records preamble preamble.recordCount rest
      ⟨body.result, (readPreamble cursor).rounds + body.rounds⟩

def nextSection (cursor : Cursor) : Option (Counted (Transcript FunctionMapping Cursor)) :=
  if cursor.rest.all (· == 0) then none
  else match Read.align 8 cursor with
    | .error failure _ => some ⟨.stop failure, 0⟩
    | .ok () aligned => some (transcript aligned)

variable {credit : Nat}

theorem read_regions_pays (scope : Scope) (fileId : UInt32) (n : Nat) (line : UInt32)
    (budget : Nat) : Pays (Cursor.supply 1) (readRegions scope fileId n line budget)
      (Section.readRegions scope fileId n line budget) (credit + 1) fun _ => credit + 1 := by
  induction n generalizing credit line budget with
  | zero => exact pure_pays (Nat.le_refl _)
  | succ n ih =>
      apply round_pays
      apply bind_pays (lift_pays (read_region_covers scope fileId line budget))
      rintro ⟨region, between⟩
      apply bind_pays (ih region.start.line between)
      rintro ⟨regions, left⟩
      apply pure_pays
      omega

theorem read_files_pays (scope : Scope) (n fileId budget : Nat) :
    Pays (Cursor.supply 1) (readFiles scope n fileId budget)
      (Section.readFiles scope n fileId budget) (credit + 1) fun _ => credit + 1 := by
  induction n generalizing fileId budget with
  | zero => exact pure_pays (Nat.le_refl _)
  | succ n ih =>
      apply round_pays
      apply bind_pays (lift_pays uleb_covers)
      intro count
      apply bind_pays (read_regions_pays scope _ _ _ _)
      rintro ⟨regions, between⟩
      apply bind_pays (ih (fileId + 1) between)
      intro others
      exact pure_pays (Nat.le_refl _)

theorem read_function_pays (layout : MappingLayout) (filenames : List String) :
    Pays (Cursor.supply 1) (readFunction layout filenames)
      (Section.readFunction layout filenames) 1 fun _ => 0 := by
  apply bind_pays (lift_pays get_covers)
  intro cursor
  apply bind_pays (lift_pays (local_covers uleb_local))
  intro fileCount
  apply bind_pays (loop_pays (fun _ => lift_pays (read_filename_covers filenames)) _)
  intro files
  apply bind_pays (lift_pays (local_covers uleb_local))
  intro exprCount
  apply bind_pays (loop_pays (fun _ => lift_pays read_operands_covers) _)
  intro table
  apply bind_pays (read_files_pays _ _ _ _)
  intro regions
  apply lift_pays
  apply ended_covers
  · apply bind_covers (local_covers position_local)
    intro offset
    exact thrown_covers _ _ _
  · exact Nat.zero_le _

theorem read_payload_pays (count : Nat) : Pays (Cursor.supply 1) (readPayload count)
    (do
      let names ← times count Read.ulebText
      if !(← Read.atEnd) then
        throw (.because .invalidEncoding "trailing bytes after the filenames")
      return names) 1 fun _ => 0 := by
  apply bind_pays (loop_pays (fun _ => lift_pays uleb_text_covers) count)
  intro names
  exact lift_pays (ended_covers (thrown_covers _ _ _) (Nat.zero_le _))

theorem read_names_pays (layout : MappingLayout) :
    Pays (Cursor.supply 2064) (readNames layout) (Section.readNames layout) 0 fun _ => 0 := by
  apply bind_pays (lift_pays uleb_covers)
  intro count
  dsimp only
  split
  · have enough : ∀ payload : Bytes,
        0 + (1 * (Cursor.little payload).remaining + 1) ≤ 2064 + payload.length := by
      intro payload
      change 0 + (1 * payload.length + 1) ≤ _
      omega
    apply bind_pays (lift_pays (Chunk.read_covers.mono enough))
    intro payload
    obtain ⟨same, few⟩ := read_paid (read_payload_pays count.toNat) (.little payload)
    apply bind_pays (of_except_pays same few)
    intro names
    exact lift_pays (ended_covers (thrown_covers _ _ _) (Nat.zero_le _))
  · have each : ∀ credit, Covers (Cursor.supply 2064) ulebText credit fun _ => credit + 1 := by
      intro credit
      apply uleb_text_covers.mono
      intro _
      omega
    apply bind_pays (loop_pays (fun credit => lift_pays (each credit)) count.toNat)
    intro names
    exact lift_pays (ended_covers (thrown_covers _ _ _) (Nat.zero_le _))

theorem read_table_pays (layout : MappingLayout) (table : Bytes) (context : Failure → Failure) :
    Pays (Cursor.supply 2064)
      (ofExcept ((read (Cursor.little table) (readNames layout)).map (·.mapError context)))
      (Read.ofExcept (((Cursor.little table).read (Section.readNames layout)).mapError context))
      (credit + 2064 * table.length) fun _ => credit := by
  obtain ⟨same, few⟩ := read_paid (read_names_pays layout) (.little table)
  apply of_except_pays
  · exact congrArg (Except.mapError context) same
  · exact few

theorem read_preamble_pays : Pays (Cursor.supply 2064) readPreamble Section.readPreamble 0
    fun _ => 2 := by
  apply bind_pays (lift_pays (local_covers position_local))
  intro start
  apply bind_pays (lift_pays (local_covers read_magic_local))
  intro order
  apply bind_pays (lift_pays (local_covers (with_order_local order)))
  intro _
  apply bind_pays (lift_pays u32_covers)
  intro tag
  apply bind_pays (lift_pays (local_covers (of_except_local _)))
  intro version
  apply bind_pays (lift_pays (local_covers u32_local))
  intro count
  apply bind_pays (lift_pays (local_covers u32_local))
  intro size
  apply bind_pays (lift_pays (local_covers position_local))
  intro tableOffset
  apply bind_pays (lift_pays (bytes_covers _))
  intro table
  apply bind_pays (read_table_pays _ table _)
  intro names
  apply bind_pays (lift_pays (local_covers (align_local 8)))
  intro _
  apply pure_pays
  omega

theorem decode_rounds_le (preamble : Preamble) (record : Record) :
    decodeRounds preamble record ≤ record.body.remaining + 1 := by
  obtain ⟨-, few⟩ := read_paid (read_function_pays preamble.version.mappingLayout
    preamble.filenames) record.body
  rw [Nat.one_mul] at few
  exact few

theorem records_same (preamble : Preamble) (n : Nat) (cursor : Cursor) :
    (records preamble n cursor).result = Section.records preamble n cursor := by
  induction n generalizing cursor with
  | zero => rfl
  | succ n ih =>
      rw [records, Section.records]
      cases readRecord preamble.version.mappingLayout cursor with
      | error failure after => rfl
      | ok record rest => exact congrArg (Transcript.cons _) (ih rest)

theorem records_paid (preamble : Preamble) (n : Nat) (cursor : Cursor) :
    (∀ after, (records preamble n cursor).result.outcome = .ok after →
      (records preamble n cursor).rounds + after.remaining ≤ cursor.remaining) ∧
      (records preamble n cursor).rounds ≤ cursor.remaining + 1 := by
  induction n generalizing cursor with
  | zero =>
      constructor
      · intro after ended
        cases ended
        exact Nat.le_of_eq (Nat.zero_add _)
      · exact Nat.zero_le _
  | succ n ih =>
      rw [records]
      cases ran : readRecord preamble.version.mappingLayout cursor with
      | error failure after =>
          constructor
          · intro after ended
            cases ended
          · exact Nat.le_add_left _ _
      | ok record rest =>
          have taken : rest.supply 1 + (0 + (13 + record.body.remaining)) ≤ cursor.supply 1 + 0 :=
            read_record_covers _ cursor record rest ran
          -- The data pays for decoding the record, and the 13 bytes before it pay for this round.
          have own := decode_rounds_le preamble record
          obtain ⟨passed, few⟩ := ih rest
          rw [Cursor.supply, Cursor.supply] at taken
          dsimp only
          constructor
          · intro after ended
            have spent := passed after ended
            omega
          · omega

theorem transcript_same (cursor : Cursor) :
    (transcript cursor).result = Section.transcript cursor := by
  rw [transcript, Section.transcript, read_preamble_pays.same]
  cases Section.readPreamble cursor with
  | error failure after => rfl
  | ok preamble rest => exact records_same preamble _ rest

theorem transcript_paid (cursor : Cursor) :
    PaysTurn Cursor.remaining 2064 cursor (transcript cursor) := by
  rw [transcript, read_preamble_pays.same]
  cases ran : Section.readPreamble cursor with
  | error failure left =>
      have spent := read_preamble_pays.failed cursor failure left ran
      constructor
      · intro after ended
        cases ended
      · exact spent
  | ok preamble rest =>
      have spent := read_preamble_pays.passed cursor preamble rest ran
      obtain ⟨passed, few⟩ := records_paid preamble preamble.recordCount rest
      rw [Cursor.supply, Cursor.supply] at spent
      constructor
      · intro after ended
        have body := passed after ended
        dsimp only
        omega
      · dsimp only
        omega

theorem next_section_paid (cursor : Cursor) (turn : Counted (Transcript FunctionMapping Cursor))
    (begun : nextSection cursor = some turn) : PaysTurn Cursor.remaining 2064 cursor turn := by
  rw [nextSection] at begun
  split at begun
  · cases begun
  · cases alignRan : Read.align 8 cursor with
    | error failure left =>
        rw [alignRan] at begun
        cases begun
        constructor
        · intro after ended
          cases ended
        · exact Nat.zero_le _
    | ok value aligned =>
        rw [alignRan] at begun
        cases begun
        have skipped := (Read.align_ran alignRan).remaining
        obtain ⟨passed, few⟩ := transcript_paid aligned
        constructor
        · intro after ended
          have spent := passed after ended
          omega
        · omega

theorem sections_succ (fuel : Nat) (cursor : Cursor) :
    sections (fuel + 1) cursor =
      (nextSection cursor).elim (.done ()) fun turn => turn.result.andThen (sections fuel) := by
  rw [sections, nextSection]
  split
  · rfl
  · cases Read.align 8 cursor with
    | error failure left => rfl
    | ok value aligned =>
        dsimp only
        rw [Option.elim_some, transcript_same]

end Section.Counting

namespace Mappings

theorem transcript_loops (data : Bytes) : ∃ rounds,
    Loops Section.Counting.nextSection (Cursor.little data) ⟨transcript data, rounds⟩ ∧
      rounds ≤ 2064 * data.length + 1 := by
  apply loops_of_paid _ Section.Counting.sections_succ _ Section.Counting.next_section_paid
  · exact Nat.le_refl _
  · intro cursor
    rfl
  · intro cursor nothing
    rw [Cursor.remaining, List.length_eq_zero_iff] at nothing
    rw [Section.Counting.nextSection, nothing]
    rfl

end Mappings

end ExecCounts
