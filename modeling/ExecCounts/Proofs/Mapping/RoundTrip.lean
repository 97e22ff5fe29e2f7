import ExecCounts.Proofs.Deflate.StoredBlocks
import ExecCounts.Proofs.Mapping.Declared
import ExecCounts.Proofs.Mapping.Filenames
import ExecCounts.Proofs.Mapping.Function
import ExecCounts.Proofs.Transcript
import Mathlib

set_option autoImplicit false

namespace ExecCounts.Section

def storedMapping (options : Options) (mapping : FunctionMapping) : FunctionMapping where
  name := mapping.name
  hash := mapping.hash
  version := options.version
  filenames := mapping.filenames.map (storedFilename options)
  regions := (sortRegions mapping.regions).map Region.stored

def functionData (options : Options) (functions : List FunctionMapping)
    (mapping : FunctionMapping) : Except Failure Bytes :=
  encodeFunction options.version.mappingLayout mapping
    (mapping.filenames.map ((filenameTable options functions).idxOf ·))

/-- What the reader demands of the expressions of a function: they are neither nested too deeply nor
too many for the size of the data. -/
structure Resolvable (options : Options) (functions : List FunctionMapping)
    (mapping : FunctionMapping) : Prop where
  shallow : ∀ expr ∈ mapping.regions.flatMap Region.storedCounters, expr.depth ≤ Expr.maxDepth
  few : ∀ data, functionData options functions mapping = .ok data →
    Expr.nodes (mapping.regions.flatMap Region.storedCounters) ≤ ExprTable.budget data.length

theorem encode_size_ok (what : String) (n : Nat) (bytes : Bytes)
    (ok : encodeSize what n = .ok bytes) : n < UInt32.size ∧ bytes = le32 n := by
  rw [encodeSize] at ok
  by_cases small : n < UInt32.size
  · rw [if_pos small] at ok
    exact ⟨small, (Except.ok.inj ok).symm⟩
  · rw [if_neg small] at ok
    cases ok

theorem with_order_yields {order : ByteOrder} {start : Nat} {rest : Bytes} :
    Read.Yields (modify (·.withOrder order)) order start [] rest () := by
  intro cursor ordered placed _
  refine ⟨cursor.withOrder order, rfl, rfl, rfl, placed⟩

theorem require_tag (version : Version) :
    Version.require (UInt64.ofNat (UInt32.ofNat version.tag).toNat) = .ok version := by
  cases version <;> rfl

section Preamble

variable (deflate : Bytes → Bytes)
  (lossless : ∀ payload, Zlib.inflate (deflate payload) = .complete payload) (options : Options)
  (names : List String) (small : (encodeFilenames deflate options names).length < UInt32.size)

def preambleBytes (count : Nat) (names : Bytes) (version : Version) : Bytes :=
  magic .little ++ le32 version.tag ++ le32 count ++ le32 names.length ++ names

include lossless small

theorem preamble_yields (count : Nat) (few : count < UInt32.size) (start : Nat) (rest : Bytes)
    (aligned : start % 8 = 0) :
    Read.Yields readPreamble .little start
      (Bytes.padTo 8 (preambleBytes count (encodeFilenames deflate options names) options.version))
      rest ⟨options.version, count, resolveNames options.version.mappingLayout names⟩ := by
  let table := encodeFilenames deflate options names
  have read := Read.read_of_yields (names_yield deflate lossless options names small)
  have size : (UInt32.ofNat table.length).toNat = table.length := UInt32.toNat_ofNat_of_lt' small
  have counted : (UInt32.ofNat count).toNat = count := UInt32.toNat_ofNat_of_lt' few
  have skipped := Read.padding_yields .little rest start
    (preambleBytes count table options.version).length aligned
  have length : start + (preambleBytes count table options.version).length =
      start + (magic .little).length + (le32 options.version.tag).length + (le32 count).length +
        (le32 table.length).length + table.length := by
    simp only [preambleBytes, List.length_append]
    omega
  rw [length] at skipped
  rw [pad_to_eq]
  generalize Bytes.zeros ((8 - (preambleBytes count table options.version).length % 8) % 8) = behind
    at skipped ⊢
  rw [preambleBytes, List.append_assoc, List.append_assoc, List.append_assoc, List.append_assoc]
  apply Read.bind_yields_nil Read.position_yields
  apply Read.bind_yields magic_yields
  apply Read.bind_yields_nil with_order_yields
  apply Read.bind_yields (Read.u32_yields options.version.tag)
  apply Read.bind_yields_nil (Read.of_except_ok_yields
    ((map_error_ok_iff _ _ _).mpr (require_tag options.version)))
  apply Read.bind_yields (Read.u32_yields count)
  apply Read.bind_yields (Read.u32_yields table.length)
  apply Read.bind_yields_nil Read.position_yields
  apply Read.bind_yields (Read.bytes_yields_of_length size.symm)
  apply Read.bind_yields_nil (Read.of_except_ok_yields ((map_error_ok_iff _ _ _).mpr read))
  apply Read.bind_yields_last skipped
  rw [counted]
  exact Read.pure_yields _

end Preamble

def recordBody (mapping : FunctionMapping) (data : Bytes) : Bytes :=
  encodeText mapping.name ++ le64 mapping.hash.toNat ++ le32 data.length ++ data

def recordPadding (layout : MappingLayout) (length : Nat) : Bytes :=
  if layout.alignedRecords then Bytes.zeros ((8 - length % 8) % 8) else []

structure RecordWritten (layout : MappingLayout) (table : List String) (mapping : FunctionMapping)
    (record data : Bytes) : Prop where
  encoded : encodeFunction layout mapping (mapping.filenames.map (table.idxOf ·)) = .ok data
  fits : data.length < UInt32.size
  shape : record = recordBody mapping data ++ recordPadding layout (recordBody mapping data).length

section Record

variable (layout : MappingLayout) (table : List String) (mapping : FunctionMapping)
  (record data : Bytes)

theorem record_written (encoded : encodeRecord layout table mapping = .ok record) :
    ∃ data, RecordWritten layout table mapping record data := by
  rw [encodeRecord, bind_ok_iff] at encoded
  obtain ⟨data, dataOk, encoded⟩ := encoded
  by_cases large : UInt32.size ≤ data.length
  · rw [if_pos large] at encoded
    cases encoded
  · rw [if_neg large] at encoded
    cases (pure_ok_iff _ _).mp encoded
    refine ⟨data, dataOk, Nat.not_le.mp large, ?_⟩
    by_cases aligned : layout.alignedRecords
    · rw [if_pos aligned, recordPadding, if_pos aligned, pad_to_eq]
      rfl
    · rw [if_neg aligned, recordPadding, if_neg aligned, List.append_nil]
      rfl

variable (written : RecordWritten layout table mapping record data)

include written

theorem record_aligned (aligned : layout.alignedRecords = true) : record.length % 8 = 0 := by
  rw [written.shape, recordPadding, if_pos aligned, List.length_append, length_zeros]
  omega

theorem name_within : (Utf8.bytes mapping.name).length ≤ record.length := by
  have text := length_text_le mapping.name
  rw [written.shape, recordBody]
  simp only [List.length_append]
  omega

theorem record_yields (start : Nat) (rest : Bytes)
    (placed : layout.alignedRecords = true → start % 8 = 0) (small : record.length < UInt64.size) :
    Read.Yields (readRecord layout) .little start record rest
      ⟨start, mapping.name, mapping.hash, Cursor.ofBytes data .little⟩ := by
  have size : (UInt32.ofNat data.length).toNat = data.length :=
    UInt32.toNat_ofNat_of_lt' written.fits
  have nameFits := Nat.lt_of_le_of_lt
    (name_within layout table mapping record data written) small
  have length : start + (recordBody mapping data).length = start + (encodeText mapping.name).length +
      (le64 mapping.hash.toNat).length + (le32 data.length).length + data.length := by
    simp only [recordBody, List.length_append]
    omega
  have skipped := Read.padding_yields .little rest start (recordBody mapping data).length
  rw [length] at skipped
  rw [written.shape, recordPadding]
  generalize Bytes.zeros ((8 - (recordBody mapping data).length % 8) % 8) = behind at skipped ⊢
  rw [recordBody, List.append_assoc, List.append_assoc, List.append_assoc]
  apply Read.bind_yields_nil Read.position_yields
  apply Read.bind_yields (Read.uleb_text_yields mapping.name nameFits)
  apply Read.bind_yields (Read.u64_word_yields mapping.hash)
  apply Read.bind_yields (Read.u32_yields data.length)
  apply Read.get_yields
  intro cursor ordered _ _
  dsimp only
  rw [ordered]
  apply Read.bind_yields (Read.bytes_yields_of_length size.symm)
  by_cases aligned : layout.alignedRecords
  · rw [if_pos aligned, if_pos aligned]
    exact Read.bind_yields_last (skipped (placed aligned)) (Read.pure_yields _)
  · rw [if_neg aligned, if_neg aligned]
    exact Read.pure_yields _

end Record

theorem names_found (options : Options) (functions : List FunctionMapping)
    (mapping : FunctionMapping) (listed : mapping ∈ functions)
    (fewNames : (filenameTable options functions).length < UInt64.size) :
    ∀ name ∈ mapping.filenames,
      (filenameTable options functions).idxOf name < UInt64.size ∧
        (resolveNames options.version.mappingLayout (filenameTable options functions))[
          (filenameTable options functions).idxOf name]? = some (storedFilename options name) := by
  intro name member
  have inTable := mem_filename_table options functions mapping listed name member
  exact ⟨Nat.lt_trans (List.idxOf_lt_length_iff.mpr inTable) fewNames,
    resolved_found options functions name inTable⟩

theorem decode_written (options : Options) (functions : List FunctionMapping) (count : Nat)
    (mapping : FunctionMapping) (record data : Bytes) (offset : Nat) (listed : mapping ∈ functions)
    (fewNames : (filenameTable options functions).length < UInt64.size)
    (written : RecordWritten options.version.mappingLayout (filenameTable options functions) mapping
      record data) (resolvable : Resolvable options functions mapping) :
    decodeRecord ⟨options.version, count, resolveNames options.version.mappingLayout
      (filenameTable options functions)⟩ ⟨offset, mapping.name, mapping.hash,
        Cursor.ofBytes data .little⟩ = .ok (storedMapping options mapping) := by
  obtain ⟨exprs, regionBytes, dataWritten⟩ := data_written _ mapping _ data written.encoded
  have read := Read.read_of_yields (data_yields options.version.mappingLayout mapping _ data exprs
    regionBytes dataWritten written.fits resolvable.shallow _ _
    (names_found options functions mapping listed fewNames) (resolvable.few data written.encoded))
  rw [decodeRecord]
  dsimp only
  rw [read]
  rfl

theorem records_answered (layout : MappingLayout) (table : List String) (preamble : Preamble)
    (answers : FunctionMapping → Except Failure FunctionMapping → Prop)
    (functions : List FunctionMapping) (pieces : List Bytes) (rest : Bytes) (cursor : Cursor)
    (sameLayout : preamble.version.mappingLayout = layout)
    (encoded : List.Forall₂ (fun mapping piece => encodeRecord layout table mapping = .ok piece)
      functions pieces)
    (ordered : cursor.order = .little)
    (placed : layout.alignedRecords = true → cursor.offset % 8 = 0)
    (remaining : cursor.rest = pieces.flatten ++ rest) (small : pieces.flatten.length < UInt64.size)
    (decodes : ∀ mapping ∈ functions, ∀ record data offset,
      RecordWritten layout table mapping record data → answers mapping (decodeRecord preamble
        ⟨offset, mapping.name, mapping.hash, Cursor.ofBytes data .little⟩)) :
    ∃ (entries : List (Except Failure FunctionMapping)) (after : Cursor),
      records preamble functions.length cursor = ⟨entries, .ok after⟩ ∧ after.rest = rest ∧
        List.Forall₂ answers functions entries := by
  induction encoded generalizing cursor with
  | nil => exact ⟨[], cursor, rfl, remaining, .nil⟩
  | @cons mapping piece functions pieces head _ ih =>
      rw [List.flatten_cons, List.append_assoc] at remaining
      rw [List.flatten_cons, List.length_append] at small
      obtain ⟨data, written⟩ := record_written layout table mapping piece head
      have yields := record_yields layout table mapping piece data written cursor.offset
        (pieces.flatten ++ rest) placed (by omega)
      obtain ⟨middle, ran, sameData, middleOrder, moved⟩ := yields cursor ordered rfl remaining
      have left := Read.rest_after cursor middle piece remaining sameData moved
      have middlePlaced : layout.alignedRecords = true → middle.offset % 8 = 0 := by
        intro aligned
        have start := placed aligned
        have length := record_aligned layout table mapping piece _ written aligned
        omega
      obtain ⟨entries, after, others, afterRest, answered⟩ :=
        ih middle middleOrder middlePlaced left (by omega)
          fun other member => decodes other (List.mem_cons_of_mem _ member)
      have own := decodes mapping List.mem_cons_self piece data cursor.offset written
      refine ⟨_ :: entries, after, ?_, afterRest, .cons own answered⟩
      rw [List.length_cons, records, sameLayout, ran]
      dsimp only
      rw [others]
      rfl

theorem section_written (deflate : Bytes → Bytes) (options : Options)
    (functions : List FunctionMapping) (bytes : Bytes)
    (written : writeWith deflate options functions = .ok bytes) : ∃ pieces : List Bytes,
      List.Forall₂ (fun mapping piece => encodeRecord options.version.mappingLayout
        (filenameTable options functions) mapping = .ok piece) functions pieces ∧
      functions.length < UInt32.size ∧
      (encodeFilenames deflate options (filenameTable options functions)).length < UInt32.size ∧
      bytes = Bytes.padTo 8 (preambleBytes functions.length
        (encodeFilenames deflate options (filenameTable options functions)) options.version) ++
          pieces.flatten := by
  rw [writeWith, bind_ok_iff] at written
  obtain ⟨pieces, piecesOk, written⟩ := written
  rw [bind_ok_iff] at written
  obtain ⟨countBytes, countOk, written⟩ := written
  rw [bind_ok_iff] at written
  obtain ⟨sizeBytes, sizeOk, written⟩ := written
  cases (pure_ok_iff _ _).mp written
  obtain ⟨few, rfl⟩ := encode_size_ok _ _ _ countOk
  obtain ⟨small, rfl⟩ := encode_size_ok _ _ _ sizeOk
  exact ⟨pieces, (map_m_ok_iff _ _ _).mp piecesOk, few, small, rfl⟩

theorem section_starts (deflate : Bytes → Bytes) (options : Options)
    (functions : List FunctionMapping) (bytes : Bytes)
    (written : writeWith deflate options functions = .ok bytes) : ∃ others, bytes = 0x43 :: others := by
  obtain ⟨pieces, -, -, -, rfl⟩ := section_written deflate options functions bytes written
  exact ⟨_, rfl⟩

section Whole

variable (deflate : Bytes → Bytes)
  (lossless : ∀ payload, Zlib.inflate (deflate payload) = .complete payload) (options : Options)
  (functions : List FunctionMapping) (bytes : Bytes)
  (written : writeWith deflate options functions = .ok bytes) (fits : bytes.length < UInt64.size)

def writtenPreamble : Preamble where
  version := options.version
  recordCount := functions.length
  filenames := resolveNames options.version.mappingLayout (filenameTable options functions)

include lossless written fits

theorem section_answered (answers : FunctionMapping → Except Failure FunctionMapping → Prop)
    (decodes : (filenameTable options functions).length < UInt64.size → ∀ mapping ∈ functions,
      ∀ record data offset, RecordWritten options.version.mappingLayout
        (filenameTable options functions) mapping record data →
          answers mapping (decodeRecord (writtenPreamble options functions)
            ⟨offset, mapping.name, mapping.hash, Cursor.ofBytes data .little⟩))
    (cursor : Cursor) (rest : Bytes) (ordered : cursor.order = .little)
    (placed : cursor.offset % 8 = 0) (remaining : cursor.rest = bytes ++ rest) :
    ∃ (entries : List (Except Failure FunctionMapping)) (after : Cursor),
      transcript cursor = ⟨entries, .ok after⟩ ∧ after.rest = rest ∧
        List.Forall₂ answers functions entries := by
  obtain ⟨pieces, encoded, few, small, rfl⟩ :=
    section_written deflate options functions bytes written
  rw [List.length_append] at fits
  rw [List.append_assoc] at remaining
  have fewNames := name_count_fits deflate lossless options _ small
  have yields := preamble_yields deflate lossless options (filenameTable options functions) small
    functions.length few cursor.offset (pieces.flatten ++ rest) placed
  obtain ⟨middle, ran, sameData, middleOrder, moved⟩ := yields cursor ordered rfl remaining
  have left := Read.rest_after cursor middle _ remaining sameData moved
  have middlePlaced : middle.offset % 8 = 0 := by
    rw [moved, length_pad_to_eight, align_up_eight]
    omega
  obtain ⟨entries, after, recordsRan, afterRest, answered⟩ :=
    records_answered options.version.mappingLayout (filenameTable options functions)
      (writtenPreamble options functions) answers functions pieces rest middle rfl encoded
      middleOrder (fun _ => middlePlaced) left (by omega) (decodes fewNames)
  exact ⟨entries, after, by rw [transcript, ran]; exact recordsRan, afterRest, answered⟩

theorem whole_answered (answers : FunctionMapping → Except Failure FunctionMapping → Prop)
    (decodes : (filenameTable options functions).length < UInt64.size → ∀ mapping ∈ functions,
      ∀ record data offset, RecordWritten options.version.mappingLayout
        (filenameTable options functions) mapping record data →
          answers mapping (decodeRecord (writtenPreamble options functions)
            ⟨offset, mapping.name, mapping.hash, Cursor.ofBytes data .little⟩)) :
    ∃ entries : List (Except Failure FunctionMapping),
      Mappings.transcript bytes = ⟨entries, .ok ()⟩ ∧ List.Forall₂ answers functions entries := by
  obtain ⟨others, starts⟩ := section_starts deflate options functions bytes written
  have something : (Cursor.little bytes).rest.all (· == 0) = false := by
    rw [starts]
    rfl
  obtain ⟨aligned, alignRan, sameData, order, offset⟩ := Read.padding_yields .little bytes 0 0 rfl
    (Cursor.little bytes) rfl rfl rfl
  have same : aligned = Cursor.little bytes := Cursor.ext_position sameData order offset
  rw [same] at alignRan
  obtain ⟨entries, after, ran, ended, answered⟩ := section_answered deflate lossless options
    functions bytes written fits answers decodes (Cursor.little bytes) [] rfl rfl
    (List.append_nil _).symm
  have nothing : ∀ fuel, sections fuel after = .done () := by
    intro fuel
    cases fuel with
    | zero => rfl
    | succ fuel =>
        rw [sections, ended]
        rfl
  refine ⟨entries, ?_, answered⟩
  rw [Mappings.transcript, starts, List.length_cons, ← starts, sections, something,
    if_neg Bool.false_ne_true, alignRan]
  dsimp only
  rw [ran, Transcript.andThen]
  simp only [nothing, Transcript.done, List.append_nil]

omit lossless written fits in
theorem entries_stored (entries : List (Except Failure FunctionMapping))
    (each : List.Forall₂ (fun mapping entry => .ok (storedMapping options mapping) = entry)
      functions entries) : entries = (functions.map (storedMapping options)).map .ok := by
  symm
  rwa [← List.forall₂_eq_eq_eq, List.map_map, List.forall₂_map_left_iff]

theorem mapping_round_trip (resolvable : ∀ mapping ∈ functions, Resolvable options functions mapping) :
    Mappings.parse .strict bytes = .ok ⟨functions.map (storedMapping options), []⟩ := by
  obtain ⟨entries, whole, answered⟩ := whole_answered deflate lossless options functions bytes written
    fits (fun mapping entry => .ok (storedMapping options mapping) = entry)
    fun fewNames mapping member record data offset recordWritten =>
      (decode_written options functions functions.length mapping record data offset member fewNames
        recordWritten (resolvable mapping member)).symm
  rw [Mappings.parse, whole, entries_stored options functions entries answered,
    Transcript.settle_ok]
  rfl

end Whole

/-- One region of each kind, out of order, with counters and columns that are not stored. -/
def everyKind : FunctionMapping where
  name := "main"
  hash := 0xfeed
  version := .v11
  filenames := ["main.c", "/src"]
  regions := [
    ⟨1, ⟨1, 1⟩, ⟨1, 30⟩, .code, .add (.counter 0) (.counter 2), none, none⟩,
    ⟨0, ⟨6, 3⟩, ⟨6, 10⟩, .expansion, .counter 9, none, some 1⟩,
    ⟨0, ⟨3, 12⟩, ⟨9, 2⟩, .code, .counter 0, some .zero, some 1⟩,
    ⟨0, ⟨4, 8⟩, ⟨4, 20⟩, .branch, .subtract (.counter 0) (.counter 1), none, none⟩,
    ⟨0, ⟨5, 0⟩, ⟨5, 0⟩, .skipped, .counter 3, none, none⟩,
    ⟨0, ⟨7, 1⟩, ⟨8, 4⟩, .gap, .subtract (.counter 0) (.counter 1), none, none⟩]

def everyKindStored : FunctionMapping where
  name := "main"
  hash := 0xfeed
  version := .v14
  filenames := ["/src/main.c", "/src"]
  regions := [
    ⟨0, ⟨3, 12⟩, ⟨9, 2⟩, .code, .counter 0, none, none⟩,
    ⟨0, ⟨4, 8⟩, ⟨4, 20⟩, .branch, .subtract (.counter 0) (.counter 1), some .zero, none⟩,
    ⟨0, ⟨5, 1⟩, ⟨5, 0xFFFFFFFF⟩, .skipped, .zero, none, none⟩,
    ⟨0, ⟨6, 3⟩, ⟨6, 10⟩, .expansion, .zero, none, some 1⟩,
    ⟨0, ⟨7, 1⟩, ⟨8, 4⟩, .gap, .subtract (.counter 0) (.counter 1), none, none⟩,
    ⟨1, ⟨1, 1⟩, ⟨1, 30⟩, .code, .add (.counter 0) (.counter 2), none, none⟩]

def newestOptions : Options := ⟨.v14, true, "/src"⟩

theorem every_kind_resolvable : Resolvable newestOptions [everyKind] everyKind where
  shallow := by decide
  few := by
    intro data encoded
    obtain ⟨other, otherEncoded, length⟩ : ∃ data,
        functionData newestOptions [everyKind] everyKind = .ok data ∧ data.length = 46 := by
      apply (to_option_map_some_iff _ List.length _).mp
      cbv
    cases encoded.symm.trans otherEncoded
    rw [length]
    decide

theorem write_every_kind : ∃ bytes : Bytes,
    writeWith Zlib.deflate newestOptions [everyKind] = .ok bytes ∧ bytes.length = 112 := by
  apply (to_option_map_some_iff _ List.length _).mp
  cbv

theorem mapping_round_trip_every_kind : ∃ bytes : Bytes,
    writeWith Zlib.deflate newestOptions [everyKind] = .ok bytes ∧ bytes.length < UInt64.size ∧
      (∀ mapping ∈ [everyKind], Resolvable newestOptions [everyKind] mapping) ∧
        Mappings.parse .strict bytes = .ok ⟨[everyKindStored], []⟩ := by
  have filenames : everyKind.filenames.map (storedFilename newestOptions) =
      everyKindStored.filenames := by decide
  have regions : (sortRegions everyKind.regions).map Region.stored = everyKindStored.regions := by cbv
  have stored : storedMapping newestOptions everyKind = everyKindStored := by
    rw [storedMapping, filenames, regions]
    rfl
  obtain ⟨bytes, written, length⟩ := write_every_kind
  have fits : bytes.length < UInt64.size := by
    rw [length]
    decide
  have resolvable : ∀ mapping ∈ [everyKind], Resolvable newestOptions [everyKind] mapping := by
    intro mapping member
    cases List.mem_singleton.mp member
    exact every_kind_resolvable
  have read := mapping_round_trip Zlib.deflate Zlib.inflate_deflate newestOptions [everyKind] bytes
    written fits resolvable
  rw [List.map_singleton, stored] at read
  exact ⟨bytes, written, fits, resolvable, read⟩

end ExecCounts.Section
