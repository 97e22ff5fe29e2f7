import ExecCounts.Proofs.Damaged
import ExecCounts.Proofs.Indexed.Declared
import ExecCounts.Proofs.Indexed.RoundTrip

set_option autoImplicit false

namespace ExecCounts.Indexed

section Front

variable {width : Width} {fields : List IndexedField} {cursor after : Cursor} {header : Header}

theorem header_local (width : Width) (fields : List IndexedField) :
    Read.Local (Header.read width fields) := by
  induction fields with
  | nil => exact Read.pure_local []
  | cons field fields ih =>
      exact Read.bind_local (Read.uint_local width) fun value =>
        Read.bind_local ih fun others => Read.pure_local ((field, value) :: others)

theorem check_sum_absent (ran : Header.read width fields cursor = .ok header after)
    (plain : fields.contains .checksum = false) (rest : Bytes) : checkSum header rest = .ok () := by
  have none : header.value? .checksum = none := by
    rw [Header.value?, Option.map_eq_none_iff, List.lookup_eq_none_iff]
    intro pair member
    rw [read_header_eq] at ran
    have listed := List.mem_map_of_mem (f := Prod.fst) member
    rw [Read.fields_keys _ _ _ _ _ ran] at listed
    rw [bne_iff_ne]
    intro same
    rw [← same, ← List.contains_iff_mem, plain] at listed
    cases listed
  rw [checkSum, none]

end Front

theorem file_run_damaged {start : Nat} {patch : Bytes} {cursor other : Cursor}
    (run : FileRun cursor) (damaged : cursor.Damaged start patch other)
    (plain : run.version.indexedLayout.hasChecksum = false)
    (behind : run.header.sections.hashTable + 8 ≤ start) : ∃ found : FileRun other,
      found.file = { run.file with data := run.file.data.overwrite start patch } := by
  have wordEnd := (Read.u64_ran run.wordRan).2.offset
  have magicEnd := (Read.u64_ran run.magicRan).2.offset
  have headerEnd := ((header_local _ _).onward run.headerRan).2
  have tableAt := (Read.seek_ran run.tableFound).2.2
  have countEnd := (Read.u64_ran run.countRan).2.offset
  obtain ⟨before, -⟩ := (check_landmarks_ok_iff _ _ _).mp run.ordered
  obtain ⟨afterMagic, magicRan, damaged⟩ :=
    Read.u64_local.damaged damaged run.magicRan (.inl (by omega))
  obtain ⟨afterWord, wordRan, damaged⟩ := Read.u64_local.damaged damaged run.wordRan (.inl (by omega))
  obtain ⟨afterHeader, headerRan, damaged⟩ :=
    (header_local _ _).damaged damaged run.headerRan (.inl (by omega))
  have ordered : checkOrder ("start", 0)
      (landmarks afterHeader.offset run.header.sections afterHeader.data.length) = .ok () := by
    rw [damaged.offset, damaged.data, Bytes.length_overwrite damaged.inside]
    exact run.ordered
  have sameData := damaged.data
  obtain ⟨table, tableFound, damaged⟩ := Read.seek_damaged damaged run.tableFound
  obtain ⟨afterCount, countRan, -⟩ := Read.u64_local.damaged damaged run.countRan (.inl (by omega))
  refine ⟨{ run with
    afterMagic, afterWord, afterHeader, table, afterCount
    magicRan, wordRan, headerRan, ordered, tableFound, countRan
    summed := check_sum_absent run.headerRan plain _ }, ?_⟩
  rw [FileRun.file, sameData]
  rfl

namespace File

structure Ordered (file : File) : Prop where
  buckets : file.bucketOffset file.bucketCount ≤ file.sections.records
  rows : file.rowOffset file.recordCount = file.sections.counters
  counters : file.sections.counters ≤ file.sections.countersEnd
  names : file.sections.countersEnd ≤ file.sections.names
  within : file.sections.names ≤ file.data.length

def damaged (file : File) (index : Nat) (patch : Bytes) : File :=
  { file with data := file.data.overwrite (file.rowOffset index) patch }

section Chains

variable (file : File)

theorem chain_entry_local (bucket : Nat) : Read.Local (file.chainEntry bucket) := by
  refine Read.bind_local Read.u64_local fun hash => ?_
  refine Read.bind_local (Read.uint_local _) fun offset => Read.check_local ?_
  split
  · exact Read.pure_local _
  · exact Read.throw_local _

theorem chain_entry_ran (bucket : Nat) (cursor : Cursor) (entry : ChainEntry) (after : Cursor)
    (ran : file.chainEntry bucket cursor = .ok entry after) :
    cursor.Moved file.layout.chainEntrySize after := by
  obtain ⟨hash, afterHash, hashRan, ran⟩ := (Read.bind_ran_iff _ _ _).mp ran
  obtain ⟨offset, afterOffset, offsetRan, ran⟩ := (Read.bind_ran_iff _ _ _).mp ran
  obtain ⟨-, ran⟩ := Read.check_ran ran
  have moved := (Read.u64_ran hashRan).2.trans (Read.uint_ran offsetRan).2
  cases found : file.indexAt? offset.toNat with
  | none =>
      rw [found] at ran
      cases ran
  | some index =>
      rw [found] at ran
      obtain ⟨-, rfl⟩ := (Read.pure_ran_iff _ _).mp ran
      exact moved

theorem chain_at_damaged {start offset bucket : Nat} {patch : Bytes} {cursor other after : Cursor}
    {entries : List ChainEntry} (damaged : cursor.Damaged start patch other)
    (behind : file.sections.records ≤ start)
    (ran : file.chainAt bucket offset cursor = .ok entries after) :
    ∃ left, file.chainAt bucket offset other = .ok entries left := by
  rw [chainAt] at ran ⊢
  obtain ⟨inside, ran⟩ := Read.check_ran ran
  obtain ⟨⟨⟩, atChain, seekRan, ran⟩ := (Read.bind_ran_iff _ _ _).mp ran
  obtain ⟨count, afterCount, countRan, ran⟩ := (Read.bind_ran_iff _ _ _).mp ran
  obtain ⟨fits, entriesRan⟩ := Read.check_ran ran
  have chainStart := (Read.seek_ran seekRan).2.2
  have countEnd := (Read.u32_ran countRan).2.offset
  have chainEnd := (Read.times_ran (file.chain_entry_ran bucket) entriesRan).offset
  obtain ⟨otherChain, otherSeek, damaged⟩ := Read.seek_damaged damaged seekRan
  obtain ⟨otherCount, otherCountRan, damaged⟩ :=
    Read.u32_local.damaged damaged countRan (.inl (by omega))
  obtain ⟨left, otherEntries, -⟩ :=
    (Read.times_local (file.chain_entry_local bucket) _).damaged damaged entriesRan (.inl (by omega))
  refine ⟨left, ?_⟩
  dsimp only
  rw [if_neg inside, run_bind_of_ok otherSeek, run_bind_of_ok otherCountRan, if_neg fits]
  exact otherEntries

end Chains

theorem read_row_takes (layout : IndexedLayout) (order : ByteOrder) :
    Read.Takes (readRow layout) order layout.recordSize := by
  simp only [IndexedLayout.recordSize, Nat.add_assoc]
  refine Read.bind_takes (Read.uint_takes _) fun nameOffset => ?_
  refine Read.bind_takes Read.u32_takes fun nameLength => ?_
  refine Read.bind_takes Read.u64_takes fun hash => ?_
  refine Read.bind_takes (Read.uint_takes _) fun counterIndex => ?_
  refine Read.bind_takes Read.u32_takes fun counterCount => ?_
  split
  · refine Read.bind_takes (Read.uint_takes _) fun valueOffset => ?_
    exact Read.bind_takes_last Read.u32_takes fun valueLength => Read.pure_takes _
  · exact Read.pure_takes _

section Rows

variable {file : File} (ordered : file.Ordered) {index : Nat} (known : index < file.recordCount)

include ordered known

theorem row_within : file.rowOffset index + file.layout.recordSize ≤ file.sections.counters := by
  have rows := Nat.mul_le_mul_right file.layout.recordSize known
  rw [← ordered.rows]
  simp only [rowOffset, Nat.succ_mul] at rows ⊢
  omega

theorem row_inside : file.rowOffset index + file.layout.recordSize ≤ file.data.length :=
  Nat.le_trans (row_within ordered known)
    (Nat.le_trans ordered.counters (Nat.le_trans ordered.names ordered.within))

theorem row_placed : ∃ piece row, piece.length = file.layout.recordSize ∧
    Placed file.data (file.rowOffset index) piece ∧
      ∀ start rest, Read.Yields (readRow file.layout) .little start piece rest row := by
  have inside := row_inside ordered known
  have length : ((file.data.drop (file.rowOffset index)).take file.layout.recordSize).length =
      file.layout.recordSize := by
    rw [List.length_take, List.length_drop]
    omega
  obtain ⟨row, yields⟩ := read_row_takes file.layout .little _ length
  exact ⟨_, row, length, .of_slice (by omega) (by rw [length]), yields⟩

omit ordered known in
theorem rows_apart (one other : Nat) (apart : one ≠ other) :
    file.rowOffset one + file.layout.recordSize ≤ file.rowOffset other ∨
      file.rowOffset other + file.layout.recordSize ≤ file.rowOffset one := by
  simp only [rowOffset]
  obtain before | behind := Nat.lt_or_gt_of_ne apart
  · have rows := Nat.mul_le_mul_right file.layout.recordSize before
    rw [Nat.succ_mul] at rows
    omega
  · have rows := Nat.mul_le_mul_right file.layout.recordSize behind
    rw [Nat.succ_mul] at rows
    omega

end Rows

section Damaged

variable {file : File} (ordered : file.Ordered) {index : Nat} (known : index < file.recordCount)
  {patch : Bytes} (length : patch.length = file.layout.recordSize)

include ordered known length

theorem patch_inside : file.rowOffset index + patch.length ≤ file.data.length :=
  length ▸ row_inside ordered known

theorem chain_damaged (bucket : Nat) (inRange : bucket < file.bucketCount)
    (entries : List ChainEntry) (found : file.chain bucket = .ok entries) :
    (file.damaged index patch).chain bucket = .ok entries := by
  have damaged : (Cursor.little file.data).Damaged (file.rowOffset index) patch
      (Cursor.little (file.damaged index patch).data) :=
    ⟨patch_inside ordered known length, rfl, rfl, rfl⟩
  have behind : file.sections.records ≤ file.rowOffset index := Nat.le_add_right _ _
  have buckets := ordered.buckets
  obtain ⟨after, ran⟩ := (Read.read_ok_iff _ _).mp found
  obtain ⟨⟨⟩, atBucket, seekRan, ran⟩ := (Read.bind_ran_iff _ _ _).mp ran
  obtain ⟨word, afterWord, wordRan, ran⟩ := (Read.bind_ran_iff _ _ _).mp ran
  have placed := (Read.seek_ran seekRan).2.2
  have wordEnd := (Read.u64_ran wordRan).2.offset
  obtain ⟨otherBucket, otherSeek, damaged⟩ := Read.seek_damaged damaged seekRan
  obtain ⟨otherWord, otherWordRan, damaged⟩ := Read.u64_local.damaged damaged wordRan (.inl (by
    simp only [bucketOffset] at buckets placed
    omega))
  refine (Read.read_ok_iff _ _).mpr ?_
  change ∃ left, (Read.seek (file.bucketOffset bucket) >>= _) _ = _
  rw [run_bind_of_ok otherSeek, run_bind_of_ok otherWordRan]
  by_cases none : word.toNat = 0
  · rw [if_pos none] at ran ⊢
    obtain ⟨rfl, -⟩ := (Read.pure_ran_iff _ _).mp ran
    exact ⟨otherWord, rfl⟩
  · rw [if_neg none] at ran ⊢
    exact file.chain_at_damaged damaged behind ran

theorem row_damaged (other : Nat) (otherKnown : other < file.recordCount) (apart : other ≠ index) :
    (file.damaged index patch).row other = file.row other := by
  obtain ⟨row, found, pieceLength, placed, yields⟩ := row_placed ordered otherKnown
  have placedStill : Placed (file.damaged index patch).data (file.rowOffset other) row := by
    refine placed.overwrite (patch_inside ordered known length) ?_
    rw [pieceLength, length]
    exact rows_apart other index apart
  have own : file.row other = .ok found :=
    Read.read_of_run (Read.seek_placed placed (yields _) (Cursor.little _) rfl rfl)
  have damaged : (file.damaged index patch).row other = .ok found :=
    Read.read_of_run (Read.seek_placed placedStill (yields _) (Cursor.little _) rfl rfl)
  rw [damaged, own]

theorem slice_damaged (what : String) (start stop offset count : Nat)
    (behind : file.sections.counters ≤ start) :
    (file.damaged index patch).slice what start stop offset count =
      file.slice what start stop offset count := by
  have rowEnd := row_within ordered known
  have same := Bytes.overwrite_behind (patch_inside ordered known length) (start + offset) (by omega)
  simp only [slice, damaged, same]

theorem record_damaged (other : Nat) (otherKnown : other < file.recordCount) (apart : other ≠ index) :
    (file.damaged index patch).record other = file.record other := by
  have row := row_damaged ordered known length other otherKnown apart
  have slice := slice_damaged ordered known length
  have sections : (file.damaged index patch).sections = file.sections := rfl
  have layout : (file.damaged index patch).layout = file.layout := rfl
  have offset : (file.damaged index patch).rowOffset other = file.rowOffset other := rfl
  have dataLength : (file.damaged index patch).data.length = file.data.length :=
    Bytes.length_overwrite (patch_inside ordered known length)
  have names : file.sections.counters ≤ file.sections.names :=
    Nat.le_trans ordered.counters ordered.names
  have name : (file.damaged index patch).name = file.name := by
    funext row
    simp only [File.name, sections, dataLength, slice _ _ _ _ _ names]
  have counters : (file.damaged index patch).counters = file.counters := by
    funext row
    simp only [File.counters, sections, layout, slice _ _ _ _ _ (Nat.le_refl _)]
  have values : (file.damaged index patch).values = file.values := by
    funext row
    cases stored : file.sections.valueProfiles with
    | none => simp only [File.values, sections, stored]
    | some start =>
        have behind := ordered.counters
        rw [Sections.countersEnd, stored, Option.getD_some] at behind
        simp only [File.values, sections, stored, slice _ _ _ _ _ behind]
  simp only [record, offset, row, name, counters, values]

theorem records_damaged : (file.damaged index patch).records =
    file.records.set index ((file.damaged index patch).record index) := by
  apply List.ext_getElem
  · simp only [records, List.length_set, List.length_map]
    rfl
  · intro other bound otherBound
    simp only [records, List.length_map, List.length_range] at bound
    simp only [records, List.getElem_set, List.getElem_map, List.getElem_range]
    by_cases own : index = other
    · rw [if_pos own, own]
    · rw [if_neg own, record_damaged ordered known length other bound (Ne.symm own)]

end Damaged

end File

namespace FileRun

variable {cursor : Cursor} (run : FileRun cursor)

theorem same_data : run.file.data = cursor.data := by
  have header := ((header_local _ _).onward run.headerRan).1
  have word := (Read.u64_ran run.wordRan).2.data
  have magic := (Read.u64_ran run.magicRan).2.data
  exact header.trans (word.trans magic)

theorem file_ordered : run.file.Ordered := by
  obtain ⟨-, -, ordered, counters, names, within⟩ := (check_landmarks_ok_iff _ _ _).mp run.ordered
  refine ⟨run.bucketsEnd, ?_, counters, names, within⟩
  have rows := Nat.div_mul_cancel (Nat.dvd_of_mod_eq_zero run.wholeRows)
  change run.header.sections.records + (run.header.sections.counters - run.header.sections.records) /
    run.version.indexedLayout.recordSize * run.version.indexedLayout.recordSize = _
  rw [rows]
  exact Nat.add_sub_cancel' ordered

end FileRun

theorem open_file_ok_iff (data : Bytes) (file : File) : openFile data = .ok file ↔
    (∃ run : FileRun (Cursor.little data), file = run.file) ∧
      ∀ bucket < file.bucketCount, ∃ entries, file.chain bucket = .ok entries := by
  rw [openFile, bind_ok_iff]
  constructor
  · rintro ⟨found, read, checked⟩
    obtain ⟨after, ran⟩ := (Read.read_ok_iff _ _).mp read
    obtain ⟨⟨⟩, chains, same⟩ := (bind_ok_iff _ _ _).mp checked
    obtain rfl := (pure_ok_iff _ _).mp same
    exact ⟨file_run_of_ran ran, fun bucket inRange =>
      (check_chains_ok_iff _ _).mp chains bucket (List.mem_range.mpr inRange)⟩
  · rintro ⟨⟨run, rfl⟩, chains⟩
    refine ⟨run.file, (Read.read_ok_iff _ _).mpr ⟨_, run.ran⟩, (bind_ok_iff _ _ _).mpr ⟨(), ?_, rfl⟩⟩
    exact (check_chains_ok_iff _ _).mpr fun bucket member => chains bucket (List.mem_range.mp member)

section Opened

variable {data : Bytes} {file : File} (opened : openFile data = .ok file)
  (plain : file.layout.hasChecksum = false) (index : Nat) (known : index < file.recordCount)
  (patch : Bytes) (length : patch.length = file.layout.recordSize)

include opened

theorem opened_ordered : file.Ordered := by
  obtain ⟨⟨run, rfl⟩, -⟩ := (open_file_ok_iff _ _).mp opened
  exact run.file_ordered

include plain known length

theorem open_file_damaged :
    openFile (data.overwrite (file.rowOffset index) patch) = .ok (file.damaged index patch) := by
  have ordered := opened_ordered opened
  obtain ⟨⟨run, rfl⟩, chains⟩ := (open_file_ok_iff _ _).mp opened
  have damaged : (Cursor.little data).Damaged (run.file.rowOffset index) patch
      (Cursor.little (data.overwrite (run.file.rowOffset index) patch)) := by
    refine ⟨?_, rfl, rfl, rfl⟩
    have inside := File.patch_inside ordered known length
    rwa [run.same_data] at inside
  have behind : run.header.sections.hashTable + 8 ≤ run.file.rowOffset index := by
    have buckets := ordered.buckets
    have rows : run.file.sections.records ≤ run.file.rowOffset index := Nat.le_add_right _ _
    have table : run.file.sections = run.header.sections := rfl
    rw [File.bucketOffset, table] at buckets
    rw [table] at rows
    omega
  obtain ⟨found, same⟩ := file_run_damaged run damaged plain behind
  refine (open_file_ok_iff _ _).mpr ⟨⟨found, same.symm⟩, fun bucket inRange => ?_⟩
  obtain ⟨entries, chain⟩ := chains bucket inRange
  exact ⟨entries, File.chain_damaged ordered known length bucket inRange entries chain⟩

omit plain in
theorem to_profile_damaged (values : List FunctionRecord) (all : file.records = values.map .ok) :
    ∃ whole left skipped, file.toProfile .bestEffort = .ok whole ∧ whole.records = values ∧
      (file.damaged index patch).toProfile .bestEffort =
        .ok { whole with records := left, skipped } ∧
      SparedBut index whole.records left skipped := by
  have ordered := opened_ordered opened
  have count : file.recordCount = values.length := by
    have same := congrArg List.length all
    rwa [File.records, List.length_map, List.length_range, List.length_map] at same
  obtain ⟨left, skipped, settled, spared⟩ := Transcript.settle_set values index
    (known.trans_eq count) ((file.damaged index patch).record index) ()
  refine ⟨⟨.indexed, some file.version, file.variant, values, [], []⟩, left, skipped, ?_, rfl, ?_,
    spared⟩
  · rw [File.toProfile, File.transcript, all, Transcript.settle_ok]
    rfl
  · rw [File.toProfile, File.transcript, File.records_damaged ordered known length, all, settled]
    rfl

end Opened

namespace Image

variable {version : Version} {profile : Profile} {data : Bytes}

theorem opens (image : Image version profile data) (fits : data.length < UInt64.size) :
    openFile data = .ok image.file := by
  have opened := Read.read_of_run (image.read_file fits)
  -- Even a chain with more entries than its field can count is sound, as far as it is counted.
  have chains := (check_chains_ok_iff image.file (List.range (bucketTotal profile))).mpr
    fun bucket member => ⟨_, image.chain_stored fits bucket (List.mem_range.mp member)⟩
  rw [openFile, bind_ok_iff]
  refine ⟨image.file, opened, ?_⟩
  rw [bind_ok_iff]
  exact ⟨(), chains, rfl⟩

end Image

theorem written_damaged_read (version : Version) (profile : Profile) (data : Bytes)
    (old : version = .v11 ∨ version = .v12) (written : write version profile = .ok data)
    (fits : data.length < UInt64.size) (index : Nat) (known : index < profile.records.length)
    (patch : Bytes) (length : patch.length = version.indexedLayout.recordSize) :
    ∃ file damaged whole left skipped, openFile data = .ok file ∧
      file.toProfile .bestEffort = .ok whole ∧
      whole.records = profile.records.map (FunctionRecord.stored version.indexedLayout) ∧
      openFile (data.overwrite
        (recordsStart version profile + index * version.indexedLayout.recordSize) patch) =
          .ok damaged ∧
      damaged.toProfile .bestEffort = .ok { whole with records := left, skipped } ∧
      SparedBut index whole.records left skipped := by
  obtain ⟨image⟩ := image_of_write version profile data written
  have opened := image.opens fits
  have plain : image.file.layout.hasChecksum = false := by
    obtain rfl | rfl := old <;> rfl
  obtain ⟨whole, left, skipped, read, records, damagedRead, spared⟩ :=
    to_profile_damaged opened index known patch length _ (image.all_read fits)
  exact ⟨_, _, whole, left, skipped, opened, read, records,
    open_file_damaged opened plain index known patch length, damagedRead, spared⟩

end ExecCounts.Indexed
