import ExecCounts.Indexed.Reader
import ExecCounts.Proofs.Header
import ExecCounts.Proofs.Indexed.Opening
import ExecCounts.Proofs.Policy

set_option autoImplicit false

namespace ExecCounts.Indexed

def headerNumber (data : Bytes) (field : IndexedField) : Option Nat := do
  let version ← storedVersion .little data
  let layout := version.indexedLayout
  return storedField .little data layout.offsetWidth.size layout.header field

theorem read_header_eq (width : Width) (listed : List IndexedField) :
    Header.read width listed = Read.fields (Read.uint width) listed := by
  induction listed with
  | nil => rfl
  | cons field rest ih => rw [Header.read, Read.fields, ih]

structure FileRun (cursor : Cursor) where
  found : UInt64
  word : UInt64
  version : Version
  header : Header
  count : UInt64
  afterMagic : Cursor
  afterWord : Cursor
  afterHeader : Cursor
  table : Cursor
  afterCount : Cursor
  magicRan : Read.u64 cursor = .ok found afterMagic
  isMagic : found.toNat = magic
  wordRan : Read.u64 afterMagic = .ok word afterWord
  required : Version.require (Variant.ofWord word).1 = .ok version
  headerRan : Header.read version.indexedLayout.offsetWidth version.indexedLayout.header afterWord =
    .ok header afterHeader
  hashKnown : header.value .hashType = 0
  summed : checkSum header afterHeader.rest = .ok ()
  ordered : checkOrder ("start", 0)
    (landmarks afterHeader.offset header.sections afterHeader.data.length) = .ok ()
  wholeRows : (header.sections.counters - header.sections.records) %
    version.indexedLayout.recordSize = 0
  tableFound : Read.seek header.sections.hashTable afterHeader = .ok () table
  countRan : Read.u64 table = .ok count afterCount
  power : isPowerOfTwo count.toNat = true
  bucketsEnd : header.sections.hashTable + 8 + 8 * count.toNat ≤ header.sections.records

def FileRun.file {cursor : Cursor} (run : FileRun cursor) : File where
  data := run.afterHeader.data
  version := run.version
  variant := (Variant.ofWord run.word).2
  sections := run.header.sections
  bucketCount := run.count.toNat
  recordCount := (run.header.sections.counters - run.header.sections.records) /
    run.version.indexedLayout.recordSize

theorem file_run_of_ran {cursor after : Cursor} {file : File}
    (ran : readFile cursor = .ok file after) : ∃ run : FileRun cursor, file = run.file := by
  rw [readFile] at ran
  obtain ⟨found, afterMagic, magicRan, ran⟩ := (Read.bind_ran_iff _ _ _).mp ran
  obtain ⟨isMagic, ran⟩ := Read.check_ran ran
  obtain ⟨word, afterWord, wordRan, ran⟩ := (Read.bind_ran_iff _ _ _).mp ran
  obtain ⟨version, afterVersion, versionRan, ran⟩ := (Read.bind_ran_iff _ _ _).mp ran
  obtain ⟨required, rfl⟩ := (Read.of_except_ran_iff _ _).mp versionRan
  obtain ⟨header, fieldsEnd, headerRan, ran⟩ := (Read.bind_ran_iff _ _ _).mp ran
  obtain ⟨headerSize, afterHeader, positionRan, ran⟩ := (Read.bind_ran_iff _ _ _).mp ran
  obtain ⟨rfl, rfl⟩ := Read.position_ran positionRan
  obtain ⟨hashKnown, ran⟩ := Read.check_ran ran
  obtain ⟨current, afterGet, getRan, ran⟩ := (Read.bind_ran_iff _ _ _).mp ran
  cases getRan
  obtain ⟨⟨⟩, afterSum, sumRan, ran⟩ := (Read.bind_ran_iff _ _ _).mp ran
  obtain ⟨summed, rfl⟩ := (Read.of_except_ran_iff _ _).mp sumRan
  obtain ⟨whole, afterGet, getRan, ran⟩ := (Read.bind_ran_iff _ _ _).mp ran
  cases getRan
  obtain ⟨⟨⟩, afterOrder, orderRan, ran⟩ := (Read.bind_ran_iff _ _ _).mp ran
  obtain ⟨ordered, rfl⟩ := (Read.of_except_ran_iff _ _).mp orderRan
  obtain ⟨wholeRows, ran⟩ := Read.check_ran ran
  obtain ⟨⟨⟩, table, tableFound, ran⟩ := (Read.bind_ran_iff _ _ _).mp ran
  obtain ⟨count, afterCount, countRan, ran⟩ := (Read.bind_ran_iff _ _ _).mp ran
  obtain ⟨soundCount, ran⟩ := Read.check_ran ran
  obtain ⟨rfl, -⟩ := (Read.pure_ran_iff _ _).mp ran
  rw [Bool.or_eq_true, not_or, Bool.not_eq_true', Bool.not_eq_false, decide_eq_true_eq,
    Nat.not_lt] at soundCount
  exact ⟨{
    found, word, version, header, count, afterMagic, afterWord, afterHeader, table, afterCount
    magicRan, wordRan, headerRan, summed, ordered, tableFound, countRan
    isMagic := not_not.mp isMagic
    required := (map_error_ok_iff _ _ _).mp required
    hashKnown := not_not.mp hashKnown
    wholeRows := not_not.mp wholeRows
    power := soundCount.1
    bucketsEnd := soundCount.2 }, rfl⟩

theorem FileRun.ran {cursor : Cursor} (run : FileRun cursor) :
    readFile cursor = .ok run.file run.afterCount := by
  have required : Read.ofExcept ((Version.require (Variant.ofWord run.word).1).mapError
      (Failure.atOffset 8)) run.afterWord = .ok run.version run.afterWord :=
    (Read.of_except_ran_iff _ _).mpr ⟨(map_error_ok_iff _ _ _).mpr run.required, rfl⟩
  have position : Read.position run.afterHeader = .ok run.afterHeader.offset run.afterHeader := rfl
  have summed : Read.ofExcept (checkSum run.header run.afterHeader.rest) run.afterHeader =
      .ok () run.afterHeader := (Read.of_except_ran_iff _ _).mpr ⟨run.summed, rfl⟩
  have ordered : Read.ofExcept (checkOrder ("start", 0) (landmarks run.afterHeader.offset
      run.header.sections run.afterHeader.data.length)) run.afterHeader = .ok () run.afterHeader :=
    (Read.of_except_ran_iff _ _).mpr ⟨run.ordered, rfl⟩
  have soundCount : (!isPowerOfTwo run.count.toNat || decide (run.header.sections.records <
      run.header.sections.hashTable + 8 + 8 * run.count.toNat)) = false := by
    rw [run.power, Bool.not_true, Bool.false_or, decide_eq_false_iff_not, Nat.not_lt]
    exact run.bucketsEnd
  rw [readFile, run_bind_of_ok run.magicRan]
  dsimp only
  rw [if_neg (not_not.mpr run.isMagic), run_bind_of_ok run.wordRan, run_bind_of_ok required,
    run_bind_of_ok run.headerRan, run_bind_of_ok position, if_neg (not_not.mpr run.hashKnown),
    Read.run_get, run_bind_of_ok summed, Read.run_get, run_bind_of_ok ordered,
    if_neg (not_not.mpr run.wholeRows), run_bind_of_ok run.tableFound, run_bind_of_ok run.countRan,
    soundCount, if_neg Bool.false_ne_true]
  rfl

theorem header_end {cursor : Cursor} (run : FileRun cursor) (start : cursor.offset = 0) :
    run.afterHeader.offset = run.file.layout.headerSize := by
  have headerRan := run.headerRan
  rw [read_header_eq] at headerRan
  have fields := (Read.fields_moved _ _ (fun _ _ _ ran => (Read.uint_ran ran).2) _ _ _ _ headerRan).offset
  rw [fields, (Read.u64_ran run.wordRan).2.offset, (Read.u64_ran run.magicRan).2.offset, start]
  rfl

theorem read_file_ran (data : Bytes) (file : File) (after : Cursor)
    (ran : readFile (Cursor.little data) = .ok file after) :
    storedVersion .little data = some file.version ∧
      file.variant = storedVariant .little data ∧
      headerNumber data .recordsOffset = some file.sections.records ∧
      headerNumber data .countersOffset =
        some (file.sections.records + file.recordCount * file.layout.recordSize) := by
  obtain ⟨run, rfl⟩ := file_run_of_ran ran
  obtain ⟨wordNumber, wordMoved⟩ := Read.u64_ran run.wordRan
  rw [(Read.u64_ran run.magicRan).2.number_at] at wordNumber
  have moved := (Read.u64_ran run.magicRan).2.trans wordMoved
  have tagged : storedVersion .little data = some run.version :=
    stored_version_eq _ _ run.word _ wordNumber run.required
  have headerRan := run.headerRan
  rw [read_header_eq] at headerRan
  have field : ∀ field ∈ run.version.indexedLayout.header,
      headerNumber data field = some (run.header.value field) := by
    intro field listed
    have found := Read.fields_ran (Read.uint run.version.indexedLayout.offsetWidth) _
      (fun _ _ _ => Read.uint_ran) _ _ _ _ headerRan field listed
    rw [moved.order, moved.data, moved.offset] at found
    rw [headerNumber, tagged, Header.value, Header.value?, found]
    rfl
  obtain ⟨-, -, ordered, -⟩ := (check_landmarks_ok_iff _ _ _).mp run.ordered
  refine ⟨tagged, stored_variant_eq _ _ run.word wordNumber,
    field _ (by cases run.version <;> decide), ?_⟩
  rw [field .countersOffset (by cases run.version <;> decide)]
  have rows := Nat.div_mul_cancel (Nat.dvd_of_mod_eq_zero run.wholeRows)
  have table : run.header.value .countersOffset = run.header.sections.records +
      (run.header.sections.counters - run.header.sections.records) :=
    (Nat.add_sub_cancel' ordered).symm
  rw [table]
  exact congrArg (fun size => some (run.header.sections.records + size)) rows.symm

theorem parse_refines (data : Bytes) :
    Refines (fun policy => Indexed.parse policy data) Profile.skipped :=
  Refines.after fun file => file.transcript.settle_refines _ _ fun _ => rfl

theorem parse_accounts (data : Bytes) (profile : Profile)
    (parsed : parse .bestEffort data = .ok profile) : ∃ version start,
      storedVersion .little data = some version ∧
        headerNumber data .recordsOffset = some start ∧
        headerNumber data .countersOffset = some (start +
          (profile.records.length + profile.skipped.length) * version.indexedLayout.recordSize) := by
  rw [parse, bind_ok_iff] at parsed
  obtain ⟨file, opened, parsed⟩ := parsed
  rw [File.toProfile, bind_ok_iff] at parsed
  obtain ⟨⟨records, skipped⟩, settled, same⟩ := parsed
  cases (pure_ok_iff _ _).mp same
  obtain ⟨total, -⟩ := file.transcript.settle_length records skipped settled
  rw [openFile, bind_ok_iff] at opened
  obtain ⟨found, ran, checked⟩ := opened
  rw [bind_ok_iff] at checked
  obtain ⟨⟨⟩, -, same⟩ := checked
  cases (pure_ok_iff _ _).mp same
  obtain ⟨after, ran⟩ := (Read.read_ok_iff _ _).mp ran
  obtain ⟨version, -, start, stop⟩ := read_file_ran data file after ran
  have rows : file.transcript.entries.length = file.recordCount := by
    rw [File.transcript, File.records, List.length_map, List.length_range]
  refine ⟨file.version, file.sections.records, version, start, ?_⟩
  rw [stop, total, rows]
  rfl

end ExecCounts.Indexed
