import ExecCounts.Proofs.Mapping.RoundTrip

set_option autoImplicit false

namespace ExecCounts.Section

open ExprTable (Extends)

structure Affordable (budget : Nat) (exprs : List Expr) : Prop where
  shallow : ∀ expr ∈ exprs, expr.depth ≤ Expr.maxDepth
  few : Expr.nodes exprs ≤ budget

theorem affordable_nil (budget : Nat) : Affordable budget [] :=
  ⟨nofun, Nat.zero_le _⟩

theorem affordable_append (spare : Nat) (first second : List Expr)
    (firstFits : Affordable (spare + Expr.nodes first) first) (secondFits : Affordable spare second) :
    Affordable (spare + Expr.nodes first) (first ++ second) := by
  constructor
  · rw [List.forall_mem_append]
    exact ⟨firstFits.shallow, secondFits.shallow⟩
  · rw [Expr.nodes_append, Nat.add_comm]
    exact Nat.add_le_add_right secondFits.few _

theorem Affordable.of_perm {budget : Nat} {first second : List Expr} (same : first.Perm second)
    (fits : Affordable budget first) : Affordable budget second where
  shallow := fun expr member => fits.shallow expr (same.mem_iff.mpr member)
  few := Expr.nodes_perm same ▸ fits.few

def Corrupt (failure : Failure) : Prop := failure.kind = .corruptMapping

variable {order : ByteOrder} {start : Nat}

theorem resolve_refuses (order : ByteOrder) (start : Nat) (left : Bytes) (expr : Expr)
    (table after final : ExprTable) (number : UInt64) (budget : Nat)
    (encoded : table.encode expr = (number, after)) (small : final.size < UInt32.size)
    (later : Extends after final) (overrun : ¬ Affordable budget [expr]) :
    Read.Refuses (Read.ofExcept (final.resolve number budget)) order start left Corrupt := by
  have beyond : ¬ (expr.depth ≤ Expr.maxDepth ∧ expr.size ≤ budget) := by
    rintro ⟨shallow, few⟩
    refine overrun ⟨List.forall_mem_singleton.mpr shallow, ?_⟩
    rwa [Expr.nodes_singleton]
  have unfolds := ExprTable.encode_unfolds final (Nat.le_trans (Nat.le_of_lt small) (by decide)) expr
    table (encoded ▸ later)
  rw [encoded] at unfolds
  exact Read.of_except_refuses (ExprTable.resolve_unfit unfolds beyond)

section Head

variable (layout : MappingLayout) (mapping : FunctionMapping) (region : Region)
  (table after : ExprTable) (bytes : Bytes) (scope : Scope) (serves : scope.Serves layout mapping)
  (later : Extends after scope.table) (budget : Nat)
  (overrun : ¬ Affordable budget region.storedCounters)

include serves later overrun

theorem head_refuses (written : HeadWritten layout mapping region table bytes after)
    (rest : Bytes) : Read.Refuses (readHead scope budget) order start (bytes ++ rest) Corrupt := by
  apply Read.bind_refuses_nil Read.position_yields
  cases written with
  | counted kind =>
      rw [(region.counted_stored kind).1] at overrun
      apply Read.bind_refuses_after (Read.uleb_word_yields _)
      rw [if_pos (ExprTable.encode_tagged table region.counter)]
      exact Read.bind_refuses (resolve_refuses order _ rest region.counter table _ scope.table _ budget
        rfl serves.smallTable later overrun)
  | expanded id kind target inside =>
      rw [(region.expansion_stored kind).1] at overrun
      exact absurd (affordable_nil budget) overrun
  | skipped kind =>
      rw [(region.skipped_stored kind).1] at overrun
      exact absurd (affordable_nil budget) overrun
  | branched kind supported middle after counter falseCounter first second =>
      have falseExtends := ExprTable.encode_extends middle (region.falseCounter.getD .zero)
      rw [second] at falseExtends
      rw [(region.branch_stored kind).1] at overrun
      rw [List.append_assoc, List.append_assoc]
      apply Read.bind_refuses_after (Read.uleb_yields (8 * branchKind) (by decide))
      change Read.Refuses (if branchKind = branchKind ∧ scope.layout.branchRegions = true then _
        else _) _ _ _ _
      rw [if_pos ⟨rfl, serves.layout ▸ supported⟩]
      apply Read.bind_refuses_after (Read.uleb_word_yields _)
      -- The first counter overruns the limits, or leaves too little for the second one.
      by_cases counterFits : Affordable budget [region.counter]
      · have few := counterFits.few
        rw [Expr.nodes_singleton] at few
        obtain ⟨spare, rfl⟩ := Nat.exists_eq_add_of_le' few
        have falseOver : ¬ Affordable spare [region.falseCounter.getD .zero] := by
          rw [← Expr.nodes_singleton] at counterFits overrun
          exact fun falseFits => overrun (affordable_append spare _ _ counterFits falseFits)
        apply Read.bind_refuses_nil (resolve_yields order _ _ region.counter table middle scope.table
          counter spare first serves.smallTable (falseExtends.trans later)
          (counterFits.shallow _ List.mem_cons_self))
        apply Read.bind_refuses_after (Read.uleb_word_yields _)
        exact Read.bind_refuses (resolve_refuses order _ rest _ middle after scope.table falseCounter
          spare second serves.smallTable later falseOver)
      · exact Read.bind_refuses (resolve_refuses order _ _ region.counter table middle scope.table
          counter budget first serves.smallTable (falseExtends.trans later) counterFits)

end Head

section Regions

variable (layout : MappingLayout) (mapping : FunctionMapping)

theorem regions_refuse (regions : List Region) (fileId line : UInt32) (table after : ExprTable)
    (bytes rest : Bytes)
    (encoded : encodeRegions layout mapping line.toNat regions table = .ok (bytes, after))
    (sameFile : ∀ region ∈ regions, region.fileId = fileId)
    (sorted : (regions.map fun region => region.start.line.toNat).Pairwise (· ≤ ·))
    (below : ∀ region ∈ regions, line.toNat ≤ region.start.line.toNat)
    (formed : ∀ region ∈ regions, region.isWellFormed) (scope : Scope)
    (serves : scope.Serves layout mapping) (later : Extends after scope.table) (budget : Nat)
    (overrun : ¬ Affordable budget (regions.flatMap Region.storedCounters)) :
    Read.Refuses (readRegions scope fileId regions.length line budget) order start (bytes ++ rest)
      Corrupt := by
  induction regions generalizing line table bytes start budget with
  | nil => exact absurd (affordable_nil budget) overrun
  | cons region others ih =>
      obtain ⟨headBytes, middle, first, last, otherBytes, written, columns, othersOk, rfl⟩ :=
        encode_regions_cons layout mapping region others line.toNat table after bytes encoded
      have middleLater := (regions_extend layout mapping others _ middle after otherBytes
        othersOk).trans later
      obtain ⟨ascends, othersSorted⟩ := List.pairwise_cons.mp sorted
      rw [List.flatMap_cons] at overrun
      rw [List.append_assoc]
      cases sameFile region List.mem_cons_self
      by_cases fits : Affordable budget region.storedCounters
      · obtain ⟨spare, rfl⟩ := Nat.exists_eq_add_of_le' fits.few
        apply Read.bind_refuses_after (region_yields layout mapping region table middle headBytes first
          last line written columns (below region List.mem_cons_self)
          (formed region List.mem_cons_self) scope serves middleLater fits.shallow spare)
        apply Read.bind_refuses
        apply ih region.start.line middle otherBytes othersOk
        · exact fun other member => sameFile other (List.mem_cons_of_mem _ member)
        · exact othersSorted
        · exact fun other member => ascends _ (List.mem_map_of_mem member)
        · exact fun other member => formed other (List.mem_cons_of_mem _ member)
        · exact fun othersFit => overrun (affordable_append spare _ _ fits othersFit)
      · rw [List.append_assoc]
        exact Read.bind_refuses (Read.bind_refuses (head_refuses layout mapping region table middle
          headBytes scope serves middleLater budget fits written _))

end Regions

section Files

variable (layout : MappingLayout) (mapping : FunctionMapping) (regions : List Region)

theorem files_refuse (n fileId : Nat) (table after : ExprTable) (bytes rest : Bytes)
    (encoded : encodeFiles layout mapping regions n fileId table = .ok (bytes, after))
    (fits : bytes.length < UInt32.size) (few : fileId + n ≤ UInt32.size)
    (sorted : ∀ id, ((ownRegions regions id).map fun region => region.start.line.toNat).Pairwise
      (· ≤ ·))
    (formed : ∀ region ∈ regions, region.isWellFormed) (scope : Scope)
    (serves : scope.Serves layout mapping) (later : Extends after scope.table) (budget : Nat)
    (overrun : ¬ Affordable budget ((byFile regions fileId n).flatMap Region.storedCounters)) :
    Read.Refuses (readFiles scope n fileId budget) order start (bytes ++ rest) Corrupt := by
  induction n generalizing fileId table bytes start budget with
  | zero => exact absurd (affordable_nil budget) overrun
  | succ n ih =>
      obtain ⟨ownBytes, middle, otherBytes, ownOk, othersOk, rfl⟩ :=
        encode_files_succ layout mapping regions n fileId table after bytes encoded
      have middleLater := (files_extend layout mapping regions n _ middle after otherBytes
        othersOk).trans later
      have ownLength := regions_length layout mapping _ 0 table middle ownBytes ownOk
      simp only [List.length_append] at fits
      have ownFits : (ownRegions regions fileId).length < UInt64.size := by
        simp only [UInt32.size, UInt64.size] at *
        omega
      have ownFormed : ∀ region ∈ ownRegions regions fileId, region.isWellFormed :=
        fun region member => formed region (List.mem_filter.mp member).1
      have sameFile := own_regions_file regions fileId (by omega)
      have below : ∀ region ∈ ownRegions regions fileId,
          (0 : UInt32).toNat ≤ region.start.line.toNat := fun _ _ => Nat.zero_le _
      rw [by_file_succ, List.flatMap_append] at overrun
      rw [List.append_assoc, List.append_assoc]
      apply Read.bind_refuses_after (Read.uleb_yields _ ownFits)
      rw [UInt64.toNat_ofNat_of_lt' ownFits]
      by_cases own : Affordable budget ((ownRegions regions fileId).flatMap Region.storedCounters)
      · obtain ⟨spare, rfl⟩ := Nat.exists_eq_add_of_le' own.few
        apply Read.bind_refuses_after (regions_yield layout mapping (ownRegions regions fileId)
          (UInt32.ofNat fileId) 0 table middle ownBytes ownOk sameFile (sorted fileId) below ownFormed
          scope serves middleLater own.shallow spare)
        apply Read.bind_refuses
        exact ih (fileId + 1) middle otherBytes othersOk (by omega) (by omega) spare
          fun othersFit => overrun (affordable_append spare _ _ own othersFit)
      · exact Read.bind_refuses (regions_refuse layout mapping (ownRegions regions fileId)
          (UInt32.ofNat fileId) 0 table middle ownBytes _ ownOk sameFile (sorted fileId) below ownFormed
          scope serves middleLater budget own)

end Files

section Data

variable (layout : MappingLayout) (mapping : FunctionMapping) (position : String → Nat)
  (data : Bytes) (table : ExprTable) (regionBytes : Bytes)
  (written : DataWritten layout mapping (mapping.filenames.map position) data table regionBytes)
  (fits : data.length < UInt32.size)

include written fits

theorem regions_overrun (available : Nat)
    (overrun : ¬ Affordable available (mapping.regions.flatMap Region.storedCounters)) (start : Nat) :
    Read.Refuses (readFiles ⟨layout, table, mapping.filenames.length⟩ mapping.filenames.length 0
      available) .little start regionBytes Corrupt := by
  obtain ⟨fewFiles, smallTable, fitRegions⟩ :=
    data_lengths layout mapping position data table regionBytes written fits
  have counters : ((sortRegions mapping.regions).flatMap Region.storedCounters).Perm
      (mapping.regions.flatMap Region.storedCounters) :=
    (sort_regions_perm mapping.regions).flatMap_right _
  have files := written.encoded
  rw [List.length_map] at files
  rw [← List.append_nil regionBytes]
  apply files_refuse layout mapping _ mapping.filenames.length 0 #[] table regionBytes [] files
    fitRegions (by omega) (own_regions_sorted mapping.regions) written.formed
    ⟨layout, table, mapping.filenames.length⟩ ⟨rfl, rfl, fewFiles, smallTable⟩
    (ExprTable.extends_refl table)
  rw [by_file_sort_regions mapping written.inFiles]
  exact fun sortedFit => overrun (sortedFit.of_perm counters)

theorem data_refuses (names : List String) (result : String → String)
    (found : ∀ name ∈ mapping.filenames,
      position name < UInt64.size ∧ names[position name]? = some (result name))
    (overrun : ¬ Affordable (ExprTable.budget data.length)
      (mapping.regions.flatMap Region.storedCounters)) :
    Read.Refuses (readFunction layout names) .little 0 data Corrupt := by
  obtain ⟨fewFiles, smallTable, -⟩ :=
    data_lengths layout mapping position data table regionBytes written fits
  have regionsRefused := regions_overrun layout mapping position data table regionBytes written fits
    _ overrun
  rw [read_function_eq]
  apply Read.get_refuses
  intro cursor _ placed remaining
  have size : cursor.data.length = data.length := by
    rw [cursor.rest_eq, placed, List.drop_zero] at remaining
    rw [remaining]
  rw [size]
  dsimp only
  generalize ExprTable.budget data.length = available at regionsRefused ⊢
  rw [written.split]
  apply Read.bind_refuses_after (tables_yield mapping.filenames position result names table found
    (Nat.lt_trans fewFiles (by decide)) (Nat.lt_trans smallTable (by decide)))
  dsimp only
  rw [List.length_map, Array.toArray_toList]
  exact Read.bind_refuses (regionsRefused _)

end Data

theorem decode_refused (options : Options) (functions : List FunctionMapping)
    (mapping : FunctionMapping) (record data : Bytes) (offset : Nat) (listed : mapping ∈ functions)
    (fewNames : (filenameTable options functions).length < UInt64.size)
    (written : RecordWritten options.version.mappingLayout (filenameTable options functions) mapping
      record data) (unresolvable : ¬ Resolvable options functions mapping) :
    ∃ failure : Failure, decodeRecord (writtenPreamble options functions)
      ⟨offset, mapping.name, mapping.hash, Cursor.ofBytes data .little⟩ = .error failure ∧
        failure.kind = .corruptMapping ∧ failure.function = some mapping.id := by
  obtain ⟨exprs, regionBytes, dataWritten⟩ := data_written _ mapping _ data written.encoded
  have overrun : ¬ Affordable (ExprTable.budget data.length)
      (mapping.regions.flatMap Region.storedCounters) := by
    refine fun fits => unresolvable ⟨fits.shallow, fun other encoded => ?_⟩
    cases encoded.symm.trans written.encoded
    exact fits.few
  obtain ⟨failure, failed, corrupt⟩ := Read.read_of_refuses (data_refuses
    options.version.mappingLayout mapping _ data exprs regionBytes dataWritten written.fits _ _
    (names_found options functions mapping listed fewNames) overrun)
  refine ⟨(failure.inFunction mapping.id).atOffset offset, ?_, corrupt, rfl⟩
  rw [decodeRecord, writtenPreamble]
  dsimp only
  rw [failed]
  rfl

def Answers (options : Options) (functions : List FunctionMapping) (mapping : FunctionMapping)
    (entry : Except Failure FunctionMapping) : Prop :=
  (Resolvable options functions mapping ∧ entry = .ok (storedMapping options mapping)) ∨
    (¬ Resolvable options functions mapping ∧ ∃ failure : Failure, entry = .error failure ∧
      failure.kind = .corruptMapping ∧ failure.function = some mapping.id)

theorem decode_answers (options : Options) (functions : List FunctionMapping)
    (fewNames : (filenameTable options functions).length < UInt64.size) (mapping : FunctionMapping)
    (listed : mapping ∈ functions) (record data : Bytes) (offset : Nat)
    (written : RecordWritten options.version.mappingLayout (filenameTable options functions) mapping
      record data) : Answers options functions mapping
        (decodeRecord (writtenPreamble options functions)
          ⟨offset, mapping.name, mapping.hash, Cursor.ofBytes data .little⟩) := by
  by_cases resolvable : Resolvable options functions mapping
  · exact .inl ⟨resolvable, decode_written options functions functions.length mapping record data
      offset listed fewNames written resolvable⟩
  · exact .inr ⟨resolvable, decode_refused options functions mapping record data offset listed
      fewNames written resolvable⟩

theorem names_uncompressed (deflate other : Bytes → Bytes) (options : Options)
    (names : List String) (plain : options.compress = false) :
    encodeFilenames deflate options names = encodeFilenames other options names := by
  rw [encodeFilenames, encodeFilenames, plain]
  rfl

theorem write_uncompressed (deflate other : Bytes → Bytes) (options : Options)
    (functions : List FunctionMapping) (plain : options.compress = false) :
    writeWith deflate options functions = writeWith other options functions := by
  rw [writeWith, writeWith, names_uncompressed deflate other options _ plain]

section Whole

variable (deflate : Bytes → Bytes) (options : Options) (functions : List FunctionMapping)
  (bytes : Bytes)
  (lossless : options.compress = true →
    ∀ payload, Zlib.inflate (deflate payload) = .complete payload)
  (written : writeWith deflate options functions = .ok bytes) (fits : bytes.length < UInt64.size)

include lossless written fits

theorem transcript_answers : ∃ entries : List (Except Failure FunctionMapping),
    Mappings.transcript bytes = ⟨entries, .ok ()⟩ ∧
      List.Forall₂ (Answers options functions) functions entries := by
  cases plain : options.compress with
  | true =>
      exact whole_answered deflate (lossless plain) options functions bytes written fits _
        (decode_answers options functions)
  | false =>
      rw [write_uncompressed deflate Zlib.deflate options functions plain] at written
      exact whole_answered Zlib.deflate Zlib.inflate_deflate options functions bytes written fits _
        (decode_answers options functions)

theorem resolvable_accepted (resolvable : ∀ mapping ∈ functions, Resolvable options functions mapping) :
    ∃ mappings, Mappings.parse .strict bytes = .ok mappings := by
  obtain ⟨entries, whole, answered⟩ :=
    transcript_answers deflate options functions bytes lossless written fits
  have each := (List.forall₂_and_left functions entries).mpr ⟨resolvable, answered⟩
  have stored := entries_stored options functions entries <| each.imp fun mapping entry both => by
    obtain ⟨-, same⟩ | ⟨unresolvable, -⟩ := both.2
    · exact same.symm
    · exact absurd both.1 unresolvable
  refine ⟨⟨functions.map (storedMapping options), []⟩, ?_⟩
  rw [Mappings.parse, whole, stored, Transcript.settle_ok]
  rfl

theorem unresolvable_refused (mapping : FunctionMapping) (listed : mapping ∈ functions)
    (unresolvable : ¬ Resolvable options functions mapping) :
    ∃ failure, Mappings.parse .strict bytes = .error failure ∧ failure.kind = .corruptMapping ∧
      ∃ mapping ∈ functions, ¬ Resolvable options functions mapping ∧
        failure.function = some mapping.id := by
  obtain ⟨entries, whole, answered⟩ :=
    transcript_answers deflate options functions bytes lossless written fits
  have blamed : ∀ failure, .error failure ∈ entries → failure.kind = .corruptMapping ∧
      ∃ mapping ∈ functions, ¬ Resolvable options functions mapping ∧
        failure.function = some mapping.id := by
    intro failure member
    have backwards : List.Forall₂ (flip (Answers options functions)) entries functions :=
      answered.flip
    obtain ⟨other, otherListed, answer⟩ := forall₂_exists backwards _ member
    obtain ⟨-, same⟩ | ⟨refused, found, same, corrupt, named⟩ := answer
    · cases same
    · cases same
      exact ⟨corrupt, other, otherListed, refused, named⟩
  have failed : ∃ failure, .error failure ∈ entries := by
    obtain ⟨entry, entryListed, answer⟩ := forall₂_exists answered mapping listed
    obtain ⟨resolvable, -⟩ | ⟨-, failure, rfl, -⟩ := answer
    · exact absurd resolvable unresolvable
    · exact ⟨failure, entryListed⟩
  obtain ⟨failure, settled, blame⟩ :=
    Transcript.settle_strict_error (⟨entries, .ok ()⟩ : Transcript _ Unit) blamed failed
  refine ⟨failure, ?_, blame⟩
  rw [Mappings.parse, whole, settled]
  rfl

/-- Strict reading accepts what was written if and only if all of its expressions keep to the limits
of the reader, and otherwise fails at a function whose expressions do not. -/
theorem written_accepted_iff :
    ((∃ mappings, Mappings.parse .strict bytes = .ok mappings) ↔
      ∀ mapping ∈ functions, Resolvable options functions mapping) ∧
    ∀ failure, Mappings.parse .strict bytes = .error failure → failure.kind = .corruptMapping ∧
      ∃ mapping ∈ functions, ¬ Resolvable options functions mapping ∧
        failure.function = some mapping.id := by
  constructor
  · refine ⟨?_, resolvable_accepted deflate options functions bytes lossless written fits⟩
    rintro ⟨mappings, parsed⟩ mapping listed
    by_contra unresolvable
    obtain ⟨failure, failed, -⟩ := unresolvable_refused deflate options functions bytes lossless
      written fits mapping listed unresolvable
    rw [failed] at parsed
    cases parsed
  · intro failure failed
    by_cases resolvable : ∀ mapping ∈ functions, Resolvable options functions mapping
    · obtain ⟨mappings, parsed⟩ :=
        resolvable_accepted deflate options functions bytes lossless written fits resolvable
      rw [parsed] at failed
      cases failed
    · push Not at resolvable
      obtain ⟨mapping, listed, unresolvable⟩ := resolvable
      obtain ⟨other, otherFailed, blame⟩ := unresolvable_refused deflate options functions bytes
        lossless written fits mapping listed unresolvable
      cases failed.symm.trans otherFailed
      exact blame

end Whole

def doubled : Nat → Expr
  | 0 => .counter 0
  | n + 1 => .add (doubled n) (doubled n)

/-- 511 nodes, for which the 25 bytes of data leave a budget of 400. -/
def overgrown : FunctionMapping where
  name := "main"
  hash := 1
  version := .v14
  filenames := ["main.c"]
  regions := [⟨0, ⟨1, 1⟩, ⟨2, 2⟩, .code, doubled 8, none, none⟩]

def plainOptions : Options := ⟨.v14, false, ""⟩

theorem write_overgrown : ∃ bytes, write plainOptions [overgrown] = .ok bytes ∧
    bytes.length < UInt64.size ∧ (Mappings.parse .strict bytes).isOk = false := by
  obtain ⟨bytes, written, outcome⟩ := (to_option_map_some_iff (write plainOptions [overgrown])
    (fun bytes => (decide (bytes.length < UInt64.size), (Mappings.parse .strict bytes).isOk))
    (true, false)).mp (by decide +kernel)
  obtain ⟨fits, refused⟩ := Prod.mk.inj outcome
  exact ⟨bytes, written, of_decide_eq_true fits, refused⟩

theorem written_accepted_iff_overgrown : ∃ bytes failure,
    write plainOptions [overgrown] = .ok bytes ∧ bytes.length < UInt64.size ∧
      ¬ Resolvable plainOptions [overgrown] overgrown ∧
      Mappings.parse .strict bytes = .error failure ∧ failure.kind = .corruptMapping ∧
        failure.function = some overgrown.id := by
  obtain ⟨bytes, written, fits, refused⟩ := write_overgrown
  obtain ⟨-, blames⟩ := written_accepted_iff Zlib.deflate plainOptions [overgrown] bytes
    (fun _ => Zlib.inflate_deflate) written fits
  cases parsed : Mappings.parse .strict bytes with
  | ok mappings =>
      rw [parsed] at refused
      cases refused
  | error failure =>
      obtain ⟨corrupt, mapping, listed, unresolvable, named⟩ := blames failure parsed
      cases List.mem_singleton.mp listed
      exact ⟨bytes, failure, written, fits, unresolvable, parsed, corrupt, named⟩

theorem overgrown_unreadable : ∃ bytes, write plainOptions [overgrown] = .ok bytes ∧
    ¬ ∃ mappings, Mappings.parse .strict bytes = .ok mappings := by
  obtain ⟨bytes, written, -, refused⟩ := write_overgrown
  refine ⟨bytes, written, fun accepted => ?_⟩
  rw [← is_ok_iff, refused] at accepted
  cases accepted

end ExecCounts.Section
