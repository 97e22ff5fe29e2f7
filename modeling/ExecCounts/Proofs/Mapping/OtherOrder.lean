import ExecCounts.Proofs.Mapping.Concatenated
import ExecCounts.Proofs.Reversed

set_option autoImplicit false

namespace ExecCounts

namespace Section

section Function

variable {orders : ByteOrder → ByteOrder → Prop}

theorem read_head_in_place (scope : Scope) (budget : Nat) :
    Read.Portable 0 orders (readHead scope budget) := by
  refine Read.bind_follows_same Read.position_in_place fun start => ?_
  refine Read.bind_follows_same Read.uleb_portable fun encoded => ?_
  dsimp only
  split
  · exact Read.bind_follows_same (Read.of_except_in_place _) fun _ => Read.pure_follows rfl
  · split
    · exact Read.check_in_place (Read.pure_follows rfl)
    · split
      · exact Read.pure_follows rfl
      · split
        · exact Read.pure_follows rfl
        · split
          · refine Read.bind_follows_same Read.uleb_portable fun first => ?_
            refine Read.bind_follows_same (Read.of_except_in_place _) fun counter => ?_
            refine Read.bind_follows_same Read.uleb_portable fun second => ?_
            refine Read.bind_follows_same (Read.of_except_in_place _) fun falseCounter => ?_
            exact Read.pure_follows rfl
          · exact Read.throw_in_place _

theorem read_region_in_place (scope : Scope) (fileId line : UInt32) (budget : Nat) :
    Read.Portable 0 orders (readRegion scope fileId line budget) := by
  refine Read.bind_follows_same (read_head_in_place scope budget) fun head => ?_
  refine Read.bind_follows_same Read.uleb32_portable fun lineDelta => ?_
  refine Read.bind_follows_same Read.uleb32_portable fun startColumn => ?_
  refine Read.bind_follows_same Read.uleb32_portable fun lineCount => ?_
  refine Read.bind_follows_same Read.uleb32_portable fun endColumn => ?_
  refine Read.bind_follows_same (Read.of_except_in_place _) fun startLine => ?_
  refine Read.bind_follows_same (Read.of_except_in_place _) fun endLine => ?_
  exact Read.check_in_place (Read.pure_follows rfl)

theorem read_regions_in_place (scope : Scope) (fileId : UInt32) (n : Nat) (line : UInt32)
    (budget : Nat) : Read.Portable 0 orders (readRegions scope fileId n line budget) := by
  induction n generalizing line budget with
  | zero => exact Read.pure_follows rfl
  | succ n ih =>
      refine Read.bind_follows_same (read_region_in_place scope fileId line budget) fun first => ?_
      exact Read.bind_follows_same (ih _ _) fun _ => Read.pure_follows rfl

theorem read_files_in_place (scope : Scope) (n fileId budget : Nat) :
    Read.Portable 0 orders (readFiles scope n fileId budget) := by
  induction n generalizing fileId budget with
  | zero => exact Read.pure_follows rfl
  | succ n ih =>
      refine Read.bind_follows_same Read.uleb_portable fun count => ?_
      refine Read.bind_follows_same (read_regions_in_place scope _ _ _ _) fun own => ?_
      exact Read.bind_follows_same (ih _ _) fun _ => Read.pure_follows rfl

theorem read_filename_in_place (filenames : List String) :
    Read.Portable 0 orders (readFilename filenames) := by
  refine Read.bind_follows_same Read.uleb_portable fun index => ?_
  dsimp only
  split
  · exact Read.pure_follows rfl
  · exact Read.throw_in_place _

theorem read_operands_portable {distance : Nat} : Read.Portable distance orders readOperands :=
  Read.bind_follows_same Read.uleb_portable fun _ =>
    Read.bind_follows_same Read.uleb_portable fun _ => Read.pure_follows rfl

theorem read_function_in_place (layout : MappingLayout) (filenames : List String) :
    Read.Portable 0 orders (readFunction layout filenames) := by
  refine Read.bind_follows Read.get_follows fun cursor shifted relocated => ?_
  rw [relocated.length, Nat.add_zero]
  refine Read.bind_follows_same Read.uleb_portable fun fileCount => ?_
  refine Read.bind_follows_same (Read.times_portable (read_filename_in_place filenames) _)
    fun files => ?_
  refine Read.bind_follows_same Read.uleb_portable fun exprCount => ?_
  refine Read.bind_follows_same (Read.times_portable read_operands_portable _) fun table => ?_
  refine Read.bind_follows_same (read_files_in_place _ _ _ _) fun regions => ?_
  refine Read.bind_follows_same Read.at_end_portable fun ended => ?_
  split
  · refine Read.bind_follows_same Read.position_in_place fun behind => ?_
    exact Read.bind_follows_same (Read.throw_in_place _) fun _ => Read.pure_follows rfl
  · exact Read.pure_follows rfl

theorem decode_record_any_order (preamble : Preamble) (offset : Nat) (name : String) (hash : UInt64)
    (data : Bytes) (order other : ByteOrder) :
    decodeRecord preamble ⟨offset, name, hash, .ofBytes data other⟩ =
      decodeRecord preamble ⟨offset, name, hash, .ofBytes data order⟩ := by
  have relocated : (Cursor.ofBytes data order).Relocated 0 (fun _ _ => True)
      (Cursor.ofBytes data other) := ⟨rfl, rfl, trivial⟩
  rw [decodeRecord, decodeRecord,
    (Read.read_follows (read_function_in_place _ _) relocated).same]

end Function

section Pieces

def recordPieces (layout : MappingLayout) (order : ByteOrder) (data : Bytes) (offset : Nat) :
    List Piece :=
  match placeAt? order data offset with
  | none => []
  | some place =>
      [.kept (place.start - 12 - offset), .number 8, .number 4,
        .kept (recordEnd layout order data offset - place.start)]

def recordsPieces (layout : MappingLayout) (order : ByteOrder) (data : Bytes) : Nat → Nat → List Piece
  | 0, _ => []
  | n + 1, offset => recordPieces layout order data offset ++
      recordsPieces layout order data n (recordEnd layout order data offset)

def pieces (data : Bytes) : List Piece :=
  let order := storedOrder data 0
  match Version.ofTag? (order.numberAt data 4 4) with
  | none => []
  | some version =>
      let records := alignUp (16 + order.numberAt data 12 4) 8
      [.number 4, .number 4, .number 4, .number 4, .kept (records - 16)] ++
        recordsPieces version.mappingLayout order data (order.numberAt data 8 4) records

def inOtherOrder (data : Bytes) : Bytes := Bytes.reverseNumbers (pieces data) data

end Pieces

section Turned

variable {rest : List Piece} {cursor turned after : Cursor}

theorem read_record_head_reversed {head : RecordHead} (reversed : cursor.Reversed
      (.kept (after.offset - 12 - cursor.offset) :: .number 8 :: .number 4 :: rest) turned)
    (ran : readRecordHead cursor = .ok head after) :
    ∃ left, readRecordHead turned = .ok head left ∧ after.Reversed rest left := by
  obtain ⟨offset, first, positionRan, ran⟩ := (Read.bind_ran_iff _ _ _).mp ran
  obtain ⟨rfl, rfl⟩ := Read.position_ran positionRan
  obtain ⟨name, second, nameRan, ran⟩ := (Read.bind_ran_iff _ _ _).mp ran
  obtain ⟨hash, third, hashRan, ran⟩ := (Read.bind_ran_iff _ _ _).mp ran
  obtain ⟨size, fourth, sizeRan, ran⟩ := (Read.bind_ran_iff _ _ _).mp ran
  obtain ⟨rfl, rfl⟩ := (Read.pure_ran_iff _ _).mp ran
  have onward := (Read.uleb_text_local.onward nameRan).2
  have moved : second.offset = first.offset + (fourth.offset - 12 - first.offset) := by
    rw [(Read.u32_ran sizeRan).2.offset, (Read.u64_ran hashRan).2.offset]
    omega
  obtain ⟨turnedSecond, turnedNameRan, behindName⟩ := Read.all_kept_reversed Read.uleb_text_local
    (fun _ => Read.uleb_text_portable) reversed nameRan moved
  obtain ⟨turnedThird, turnedHashRan, behindHash⟩ := Read.u64_reversed behindName hashRan
  obtain ⟨turnedFourth, turnedSizeRan, behindSize⟩ := Read.u32_reversed behindHash sizeRan
  refine ⟨turnedFourth, ?_, behindSize⟩
  rw [readRecordHead, run_bind_of_ok (Read.position_placed reversed.offset),
    run_bind_of_ok turnedNameRan, run_bind_of_ok turnedHashRan, run_bind_of_ok turnedSizeRan]
  rfl

theorem read_entry_reversed {preamble : Preamble} {entry : Except Failure FunctionMapping}
    (reversed : cursor.Reversed (recordPieces preamble.version.mappingLayout cursor.order cursor.data
      cursor.offset ++ rest) turned) (ran : readEntry preamble cursor = .ok entry after) :
    ∃ left, readEntry preamble turned = .ok entry left ∧ after.Reversed rest left := by
  obtain ⟨-, -, ended⟩ := read_entry_moved ran
  obtain ⟨record, recordRan, rfl⟩ := Read.map_ran ran
  obtain ⟨head, first, body, second, headRan, bodyRan, paddingRan, rfl⟩ :=
    (read_record_ran_iff _ _ _ _).mp recordRan
  obtain ⟨-, -, -, found⟩ := read_record_head_ran _ _ _ headRan
  have bodyMoved := (Read.bytes_ran bodyRan).2.2.offset
  have onward := ((read_padding_local _).onward paddingRan).2
  have behind : after.offset - first.offset =
      head.size.toNat + (after.offset - second.offset) := by omega
  rw [recordPieces, found, ← ended] at reversed
  dsimp only [List.cons_append, List.nil_append] at reversed
  rw [behind] at reversed
  obtain ⟨turnedFirst, turnedHeadRan, behindHead⟩ := read_record_head_reversed reversed headRan
  obtain ⟨turnedSecond, turnedBodyRan, behindBody⟩ := Read.kept_reversed (Read.bytes_local _)
    (fun _ => Read.bytes_portable _) behindHead bodyRan bodyMoved
  obtain ⟨left, turnedPaddingRan, behindPadding⟩ := Read.all_kept_reversed (read_padding_local _)
    (fun _ => read_padding_portable rfl _) behindBody paddingRan (by omega)
  have turnedRan : readRecord preamble.version.mappingLayout turned =
      .ok ⟨head.offset, head.name, head.hash, .ofBytes body turnedFirst.order⟩ left :=
    (read_record_ran_iff _ _ _ _).mpr
      ⟨head, turnedFirst, body, turnedSecond, turnedHeadRan, turnedBodyRan, turnedPaddingRan, rfl⟩
  refine ⟨left, ?_, behindPadding⟩
  rw [readEntry, map_eq_pure_bind, run_bind_of_ok turnedRan,
    decode_record_any_order preamble head.offset head.name head.hash body first.order]
  rfl

theorem entries_reversed {preamble : Preamble} (n : Nat)
    (entries : List (Except Failure FunctionMapping))
    (reversed : cursor.Reversed (recordsPieces preamble.version.mappingLayout cursor.order cursor.data
      n cursor.offset ++ rest) turned)
    (ran : times n (readEntry preamble) cursor = .ok entries after) :
    ∃ left, times n (readEntry preamble) turned = .ok entries left ∧ after.Reversed rest left := by
  induction n generalizing cursor turned entries with
  | zero =>
      obtain ⟨rfl, rfl⟩ := (Read.pure_ran_iff _ _).mp ran
      exact ⟨turned, rfl, reversed⟩
  | succ n ih =>
      obtain ⟨first, middle, others, firstRan, othersRan, rfl⟩ :=
        (Read.times_succ_ran_iff _ _ _).mp ran
      obtain ⟨data, order, offset⟩ := read_entry_moved firstRan
      rw [recordsPieces, List.append_assoc] at reversed
      obtain ⟨between, betweenRan, behind⟩ := read_entry_reversed reversed firstRan
      rw [← offset, ← order, ← data] at behind
      obtain ⟨left, leftRan, behindAll⟩ := ih others behind othersRan
      exact ⟨left, (Read.times_succ_ran_iff _ _ _).mpr
        ⟨first, between, others, betweenRan, leftRan, rfl⟩, behindAll⟩

theorem read_magic_reversed {order : ByteOrder}
    (remaining : turned.rest = Bytes.reverseNumbers (.number 4 :: rest) cursor.rest)
    (placed : turned.offset = cursor.offset) (ran : readMagic cursor = .ok order after) :
    ∃ left, readMagic turned = .ok order.other left ∧
      (after.withOrder order).Reversed rest (left.withOrder order.other) := by
  have moved := (read_magic_ran _ _ _ ran).2
  have reverse : (magic order).reverse = magic order.other := by cases order <;> rfl
  have length : (magic order.other).length = 4 := by cases order <;> rfl
  rw [Bytes.reverseNumbers, read_magic_taken ran, reverse] at remaining
  obtain ⟨left, turnedRan, data, -, offset⟩ := magic_yields turned rfl rfl remaining
  refine ⟨left, turnedRan, ?_, ?_, rfl⟩
  · change left.rest = Bytes.reverseNumbers rest after.rest
    rw [Read.rest_after turned left _ remaining data offset, after.rest_eq, moved.data, moved.offset,
      ← List.drop_drop, ← cursor.rest_eq]
  · change left.offset = after.offset
    rw [offset, length, placed, moved.offset]

theorem read_preamble_reversed {preamble : Preamble} {length : Nat}
    (remaining : turned.rest = Bytes.reverseNumbers
      ([.number 4, .number 4, .number 4, .number 4, .kept length] ++ rest) cursor.rest)
    (ahead : cursor.offset + 16 + length = after.offset) (placed : turned.offset = cursor.offset)
    (ran : readPreamble cursor = .ok preamble after) :
    ∃ left, readPreamble turned = .ok preamble left ∧ after.Reversed rest left := by
  obtain ⟨run, rfl⟩ := (read_preamble_ran_iff _ _ _).mp ran
  have tableMoved := (Read.bytes_ran run.tableRan).2.2.offset
  have onward := ((Read.align_local 8).onward run.alignRan).2
  have numbers : run.afterSize.offset = cursor.offset + 16 := by
    rw [(Read.u32_ran run.sizeRan).2.offset, (Read.u32_ran run.countRan).2.offset,
      (Read.u32_ran run.tagRan).2.offset]
    exact congrArg (· + 12) (read_magic_ran _ _ _ run.magicRan).2.offset
  have behindNumbers : length = run.size.toNat + (after.offset - run.afterTable.offset) := by omega
  rw [behindNumbers] at remaining
  obtain ⟨turnedMagic, magicRan, behindMagic⟩ := read_magic_reversed remaining placed run.magicRan
  obtain ⟨turnedTag, tagRan, behindTag⟩ := Read.u32_reversed behindMagic run.tagRan
  obtain ⟨turnedCount, countRan, behindCount⟩ := Read.u32_reversed behindTag run.countRan
  obtain ⟨turnedSize, sizeRan, behindSize⟩ := Read.u32_reversed behindCount run.sizeRan
  obtain ⟨turnedTable, tableRan, behindTable⟩ := Read.kept_reversed (Read.bytes_local _)
    (fun _ => Read.bytes_portable _) behindSize run.tableRan tableMoved
  obtain ⟨left, alignRan, behindAll⟩ := Read.all_kept_reversed (Read.align_local 8)
    (fun _ => Read.align_portable 8 rfl) behindTable run.alignRan (by omega)
  let turnedRun : PreambleRun turned left := ⟨run.order.other, run.tag, run.version, run.count,
    run.size, run.table, run.names, turnedMagic, turnedTag, turnedCount, turnedSize, turnedTable,
    magicRan, tagRan, run.required, countRan, sizeRan, tableRan, run.decoded, alignRan⟩
  exact ⟨left, (read_preamble_ran_iff _ _ _).mpr ⟨turnedRun, rfl⟩, behindAll⟩

theorem section_reversed (data : Bytes) (entries : List (Except Failure FunctionMapping))
    (last : Cursor) (ran : readSection (Cursor.little data) = .ok entries last) :
    (∃ others, pieces data = .number 4 :: others) ∧
      ∃ left, readSection (Cursor.little (inOtherOrder data)) = .ok entries left ∧
        last.Reversed [] left := by
  obtain ⟨preamble, first, openingRan, entriesRan⟩ := (Read.bind_ran_iff _ _ _).mp ran
  obtain ⟨⟨⟩, aligned, alignRan, preambleRan⟩ := (Read.bind_ran_iff _ _ _).mp openingRan
  have inPlace : Read.align 8 (Cursor.little data) = .ok () (Cursor.little data) :=
    Read.align_in_place rfl
  cases inPlace.symm.trans alignRan
  obtain ⟨version, count, sameData, ordered, placed⟩ := read_preamble_ran _ _ _ preambleRan
  change Version.ofTag? ((storedOrder data 0).numberAt data 4 4) = _ at version
  change _ = (storedOrder data 0).numberAt data 8 4 at count
  change first.offset = alignUp (16 + (storedOrder data 0).numberAt data 12 4) 8 at placed
  let records := recordsPieces preamble.version.mappingLayout first.order first.data
    preamble.recordCount first.offset
  -- Four numbers, the table of file names, and then what the records consist of.
  have shape : pieces data = [.number 4, .number 4, .number 4, .number 4,
      .kept (first.offset - 16)] ++ (records ++ []) := by
    rw [pieces, version, List.append_nil]
    dsimp only [records]
    rw [sameData, ordered, placed, count]
    rfl
  refine ⟨⟨_, shape⟩, ?_⟩
  have remaining : (Cursor.little (inOtherOrder data)).rest = Bytes.reverseNumbers
      ([.number 4, .number 4, .number 4, .number 4, .kept (first.offset - 16)] ++ (records ++ []))
        (Cursor.little data).rest := congrArg (Bytes.reverseNumbers · data) shape
  have ahead : (Cursor.little data).offset + 16 + (first.offset - 16) = first.offset := by
    have upward := le_align_up_eight (16 + (storedOrder data 0).numberAt data 12 4)
    change 0 + 16 + _ = _
    omega
  obtain ⟨turnedFirst, turnedPreambleRan, behindPreamble⟩ :=
    read_preamble_reversed remaining ahead rfl preambleRan
  obtain ⟨left, turnedEntriesRan, behindAll⟩ := entries_reversed _ entries behindPreamble entriesRan
  have turnedAlignRan : Read.align 8 (Cursor.little (inOtherOrder data)) =
      .ok () (Cursor.little (inOtherOrder data)) := Read.align_in_place rfl
  refine ⟨left, ?_, behindAll⟩
  rw [readSection, readOpening, bind_assoc, run_bind_of_ok turnedAlignRan,
    run_bind_of_ok turnedPreambleRan, turnedEntriesRan]

end Turned

end Section

namespace Mappings

theorem transcript_in_other_order (order : ByteOrder) (data : Bytes)
    (stored : data.take 4 = Section.magic order) (ended : (transcript data).outcome = .ok ()) :
    (Section.inOtherOrder data).take 4 = Section.magic order.other ∧
      transcript (Section.inOtherOrder data) = transcript data := by
  have some := Section.not_zeros_of_magic 0 stored
  have length : (Section.inOtherOrder data).length = data.length :=
    Bytes.length_reverse_numbers _ _
  rw [transcript] at ended
  rw [transcript, transcript, length]
  cases size : data.length with
  | zero =>
      rw [List.eq_nil_of_length_eq_zero size] at some
      cases some
  | succ fuel =>
      rw [size] at ended
      obtain ⟨zeros, -⟩ | ⟨entries, last, ran, -⟩ := Section.sections_ended fuel ended
      · cases some.symm.trans zeros
      · obtain ⟨⟨others, shape⟩, left, turnedRan, reversed⟩ :=
          Section.section_reversed data entries last ran
        obtain ⟨aligned, alignRan, sectionEnded⟩ := Section.read_section_ran_iff.mp ran
        have whole : (Cursor.little data).remaining = fuel + 1 := size
        have shrinks := Section.section_shrinks alignRan (congrArg Transcript.outcome sectionEnded)
        have fewer : last.remaining ≤ fuel := by omega
        constructor
        · rw [Section.inOtherOrder, shape, Bytes.reverseNumbers, stored]
          cases order <;> rfl
        · rw [Section.sections_step ran, Section.sections_step turnedRan,
            (Section.sections_follow rfl fuel fuel last left fewer fewer reversed.relocated).same]

theorem parse_in_other_order (policy : Policy) (order : ByteOrder) (data : Bytes) (mappings : Mappings)
    (stored : data.take 4 = Section.magic order) (parsed : parse policy data = .ok mappings) :
    (Section.inOtherOrder data).take 4 = Section.magic order.other ∧
      parse policy (Section.inOtherOrder data) = .ok mappings := by
  rw [parse] at parsed ⊢
  obtain ⟨⟨functions, skipped⟩, settled, -⟩ := (bind_ok_iff _ _ _).mp parsed
  obtain ⟨-, -, -, ⟨⟩, ended⟩ := Transcript.settle_ok_parts policy _ _ _ settled
  obtain ⟨turned, same⟩ := transcript_in_other_order order data stored ended
  rw [same]
  exact ⟨turned, parsed⟩

theorem parse_in_other_order_half : ∃ mappings,
    halfReadable.take 4 = Section.magic .little ∧ parse .bestEffort halfReadable = .ok mappings ∧
      mappings.functions.length = 1 ∧ mappings.skipped.length = 1 ∧
      (Section.inOtherOrder halfReadable).take 4 = Section.magic .big ∧
      parse .bestEffort (Section.inOtherOrder halfReadable) = .ok mappings := by
  have found : (parse .bestEffort halfReadable).map
      (fun mappings => (mappings.functions.length, mappings.skipped.length)) = .ok (1, 1) := by
    decide +kernel
  obtain ⟨mappings, parsed, counts⟩ := (map_ok_iff _ _ _).mp found
  obtain ⟨read, skipped⟩ := Prod.mk.inj counts
  obtain ⟨turned, same⟩ := parse_in_other_order .bestEffort .little halfReadable mappings rfl parsed
  exact ⟨mappings, rfl, parsed, read, skipped, turned, same⟩

example : Section.inOtherOrder halfReadable =
    Section.magic .big ++ [0, 0, 0, 14, 0, 0, 0, 2, 0, 0, 0, 3, 0, 0, 0, 0, 0, 0, 0, 0] ++
      [1, 102, 0, 0, 0, 0, 0, 0, 0, 7, 0, 0, 0, 2, 0, 0] ++
      [1, 103, 0, 0, 0, 0, 0, 0, 0, 8, 0, 0, 0, 2, 1, 4] ++ Bytes.zeros 8 := by
  decide +kernel

end Mappings

end ExecCounts
