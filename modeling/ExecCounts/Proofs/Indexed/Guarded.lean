import ExecCounts.Proofs.Guarded
import ExecCounts.Proofs.Indexed.Listed

set_option autoImplicit false

namespace ExecCounts.Indexed

open ExecCounts.Guarded

namespace Guarded

/-- What the reader computes without a check relies on what was checked before. Reads at a cursor
check by themselves that enough is left, so that they are taken over as they are. -/
def readFile : Guarded File := do
  if (← Read.u64).toNat ≠ magic then throw (.failure (Failure.atOffset 0 { kind := .badMagic }))
  let (tag, variant) := Variant.ofWord (← Read.u64)
  let version ← Read.ofExcept ((Version.require tag).mapError (·.atOffset 8))
  let layout := version.indexedLayout
  let header ← Header.read layout.offsetWidth layout.header
  let headerSize ← Read.position
  let hashType := header.value .hashType
  if hashType ≠ 0 then
    throw (.failure ((Failure.because .invalidEncoding
      s!"unknown hash type {Numeral.decimal hashType}").atOffset 16))
  Read.ofExcept (checkSum header (← get).rest)
  let sections := header.sections
  let data := (← get).data
  Read.ofExcept (checkOrder ("start", 0) (landmarks headerSize sections data.length))
  let tableSize ← sub sections.counters sections.records
  if (← rem tableSize layout.recordSize) ≠ 0 then
    let detail := "record table of " ++ Numeral.decimal tableSize ++
      " bytes is not a multiple of " ++ Numeral.decimal layout.recordSize
    throw (.failure ((corrupt detail).atOffset sections.records))
  Read.seek sections.hashTable
  let bucketCount := (← Read.u64).toNat
  let bucketsStart ← Read.position
  let bucketsEnd := (word? (bucketCount * 8)).bind fun size => word? (size + bucketsStart)
  if !isPowerOfTwo bucketCount || bucketsEnd.all (sections.records < ·) then
    throw (.failure ((corrupt s!"invalid bucket count {Numeral.decimal bucketCount}").atOffset
      sections.hashTable))
  let recordCount ← div tableSize layout.recordSize
  return { data, version, variant, sections, bucketCount, recordCount }

section File

variable (file : File)

def bucketOffset (bucket : Nat) : Except Halt Nat := do
  add (← add file.sections.hashTable 8) (← mul bucket 8)

def bucketOf (hash : UInt64) : Except Halt Nat := do
  return hash.toNat &&& (← sub file.bucketCount 1)

def indexAt? (offset : Nat) : Except Halt (Option Nat) :=
  match sub? offset file.sections.records with
  | none => return none
  | some relative => do
      if (← rem relative file.layout.recordSize) ≠ 0 then return none
      let index ← div relative file.layout.recordSize
      return if index < file.recordCount then some index else none

def chainEntry (bucket : Nat) : Guarded ChainEntry := do
  let hash ← Read.u64
  let offset := (← Read.uint file.layout.offsetWidth).toNat
  if (← bucketOf file hash) ≠ bucket then
    let detail := "hash " ++ Numeral.hex hash.toNat ++ " does not belong into bucket " ++
      Numeral.decimal bucket
    throw (.failure ((corrupt detail).atOffset (file.bucketOffset bucket)))
  match ← indexAt? file offset with
  | some index => return { hash, index }
  | none =>
      let detail := "record offset " ++ Numeral.hex offset ++ " of hash " ++
        Numeral.hex hash.toNat ++ " is not a record"
      throw (.failure ((corrupt detail).atOffset (file.bucketOffset bucket)))

def chainAt (bucket offset : Nat) : Guarded (List ChainEntry) := do
  let limit := file.sections.records
  let chainsStart ← bucketOffset file file.bucketCount
  if offset < chainsStart ∨ (word? (offset + 4)).all (limit < ·) then
    let detail := "chain of bucket " ++ Numeral.decimal bucket ++ " at " ++ Numeral.hex offset ++
      " is outside of the hash table"
    throw (.failure ((corrupt detail).atOffset (file.bucketOffset bucket)))
  Read.seek offset
  let count := (← Read.u32).toNat
  let needed ← mul count file.layout.chainEntrySize
  let left ← sub limit (← Read.position)
  if left < needed then
    let detail := "chain of bucket " ++ Numeral.decimal bucket ++ " with " ++
      Numeral.decimal count ++ " entries exceeds the hash table"
    throw (.failure ((corrupt detail).atOffset (file.bucketOffset bucket)))
  times count (chainEntry file bucket)

def chain (bucket : Nat) : Except Halt (List ChainEntry) := do
  let place ← bucketOffset file bucket
  (Cursor.little file.data).readGuarded do
    Read.seek place
    let offset := (← Read.u64).toNat
    if offset = 0 then return []
    else chainAt file bucket offset

def checkChains : List Nat → Except Halt Unit
  | [] => .ok ()
  | bucket :: rest => do
      let _ ← chain file bucket
      checkChains rest

def rowOffset (index : Nat) : Except Halt Nat := do
  add file.sections.records (← mul index file.layout.recordSize)

def row (index : Nat) : Except Halt Row := do
  file.readAt (← rowOffset file index) (File.readRow file.layout)

def sectionSlice (what : String) (start stop offset length : Nat) : Except Halt Bytes := do
  let outside := corrupt (what ++ " at " ++ Numeral.hex offset ++ " with length " ++
    Numeral.decimal length ++ " is outside of its section")
  match word? (offset + length) with
  | none => throw (.failure outside)
  | some sliceEnd =>
      if (← sub stop start) < sliceEnd then throw (.failure outside)
      slice file.data start stop (← add start offset) (← add start sliceEnd)

def name (row : Row) : Except Halt String := do
  let bytes ← sectionSlice file "name" file.sections.names file.data.length row.nameOffset.toNat
    row.nameLength.toNat
  match Utf8.text? bytes with
  | some name => return name
  | none => throw (.failure (.because .invalidEncoding "function name is not valid UTF-8"))

def counters (row : Row) : Except Halt (List Count) := do
  let width := file.layout.counterWidth
  match word? (row.counterIndex.toNat * width.size) with
  | none => throw (.failure (corrupt "counter index overflows"))
  | some offset =>
      let count := row.counterCount.toNat
      let bytes ← sectionSlice file "counters" file.sections.counters file.sections.countersEnd offset
        (← mul count width.size)
      (Cursor.little bytes).read (times count (Read.uint width))

def values (row : Row) : Except Halt (Option ValueProfile) :=
  match file.sections.valueProfiles with
  | none => .ok none
  | some start =>
      if row.valueLength = 0 then .ok none
      else do
        let bytes ← sectionSlice file "value profile" start file.sections.names row.valueOffset.toNat
          row.valueLength.toNat
        (Cursor.little bytes).read do
          let blob ← Blob.frame
          if !(← Read.atEnd) then
            throw (corrupt "value profile is shorter than its record declares")
          return some (← Read.ofExcept (blob.read (Blob.decode none)))

def record (index : Nat) : Except Halt FunctionRecord := do
  let offset ← rowOffset file index
  let row ← row file index
  let name ← (name file row).mapError (Halt.amend (·.atOffset offset))
  let context (failure : Failure) := (failure.inFunction ⟨name, row.hash⟩).atOffset offset
  let counters ← (counters file row).mapError (Halt.amend context)
  let values ← (values file row).mapError (Halt.amend context)
  return { name, hash := row.hash, counters, values }

def lookup (hash : UInt64) : Except Halt (List FunctionRecord) := do
  let entries ← chain file (← bucketOf file hash)
  (entries.filter (·.hash == hash)).mapM fun entry => record file entry.index

def get? (id : FunctionId) : Except Halt (Option FunctionRecord) := do
  return (← lookup file id.hash).find? (·.name == id.name)

def records : List (Except Halt FunctionRecord) :=
  (List.range file.recordCount).map (record file)

end File

def openFile (data : Bytes) : Except Halt File := do
  let file ← (Cursor.little data).readGuarded readFile
  checkChains file (List.range file.bucketCount)
  return file

end Guarded

structure File.Addressable (file : File) : Prop where
  ordered : file.Ordered
  power : isPowerOfTwo file.bucketCount = true
  small : file.data.length < UInt64.size

theorem addressable_of_ran {data : Bytes} (fits : data.length < UInt64.size) {file : File}
    {after : Cursor} (ran : readFile (Cursor.little data) = .ok file after) : file.Addressable := by
  obtain ⟨run, rfl⟩ := file_run_of_ran ran
  exact ⟨run.file_ordered, run.power, run.same_data ▸ fits⟩

theorem record_size_pos (layout : IndexedLayout) : 0 < layout.recordSize := by
  simp only [IndexedLayout.recordSize]
  omega

namespace Guarded

section Addressable

variable {file : File} (addressable : file.Addressable)

include addressable

theorem records_small : file.sections.records < UInt64.size := by
  have small := addressable.small
  have rows := addressable.ordered.rows
  have counters := addressable.ordered.counters
  have names := addressable.ordered.names
  have within := addressable.ordered.within
  simp only [File.rowOffset] at rows
  omega

section Chains

theorem bucket_offset_ok (bucket : Nat) (inRange : bucket ≤ file.bucketCount) :
    bucketOffset file bucket = .ok (file.bucketOffset bucket) := by
  have small := records_small addressable
  have buckets := addressable.ordered.buckets
  simp only [File.bucketOffset] at buckets ⊢
  rw [bucketOffset, add_ok (by omega), mul_ok (by omega), Nat.mul_comm bucket]
  exact add_ok (by omega)

theorem bucket_of_ok (hash : UInt64) : bucketOf file hash = .ok (file.bucketOf hash) := by
  have power := beq_iff_eq.mp addressable.power
  rw [Nat.one_shiftLeft] at power
  rw [bucketOf, sub_ok (power_pos addressable.power)]
  refine congrArg Except.ok ?_
  rw [File.bucketOf, ← power]
  exact Nat.and_two_pow_sub_one_eq_mod _ _

omit addressable in
theorem index_at_ok (offset : Nat) : indexAt? file offset = .ok (file.indexAt? offset) := by
  have some := record_size_pos file.layout
  rw [indexAt?, File.indexAt?, sub?]
  by_cases above : file.sections.records ≤ offset
  · rw [if_pos above]
    dsimp only
    rw [rem_ok some, div_ok some]
    by_cases whole : (offset - file.sections.records) % file.layout.recordSize = 0
    · by_cases known : (offset - file.sections.records) / file.layout.recordSize < file.recordCount
      · rw [if_pos ⟨above, whole, known⟩, whole]
        exact congrArg Except.ok (if_pos known)
      · rw [if_neg fun all => known all.2.2, whole]
        exact congrArg Except.ok (if_neg known)
    · rw [if_neg fun all => whole all.2.1]
      exact if_pos whole
  · rw [if_neg above, if_neg fun all => above all.1]
    rfl

theorem chain_entry_same (bucket : Nat) (cursor : Cursor) :
    SameAt (chainEntry file bucket) (file.chainEntry bucket) cursor := by
  refine bind_same_at (lift_same_at _) fun hash _ _ => ?_
  refine bind_same_at (lift_same_at _) fun offset _ _ => ?_
  refine same_at_after (bucket_of_ok addressable hash) (check_same_at Iff.rfl fun _ => ?_)
  refine same_at_after (index_at_ok offset.toNat) ?_
  cases file.indexAt? offset.toNat with
  | none => rfl
  | some index => rfl

theorem chain_at_same (bucket offset : Nat) (cursor : Cursor) :
    SameAt (chainAt file bucket offset) (file.chainAt bucket offset) cursor := by
  have small := records_small addressable
  refine same_at_after (bucket_offset_ok addressable _ (Nat.le_refl _)) ?_
  refine check_same_at (or_congr Iff.rfl (word_exceeds_iff small)) fun inside => ?_
  refine bind_same_at (lift_same_at _) fun _ atChain seekRan => ?_
  refine bind_same_at (lift_same_at _) fun count afterCount countRan => ?_
  have chainStart := (Read.seek_ran seekRan).2.2
  have position := (Read.u32_ran countRan).2.offset
  rw [not_or, Nat.not_lt, Nat.not_lt] at inside
  have few := count.toNat_lt
  have entrySize : file.layout.chainEntrySize ≤ 16 := by
    rw [IndexedLayout.chainEntrySize]
    cases file.layout.offsetWidth <;> decide
  have product := Nat.mul_le_mul (Nat.le_of_lt few) entrySize
  have room : 2 ^ 32 * 16 < UInt64.size := by decide
  refine same_at_after (mul_ok (Nat.lt_of_le_of_lt product room)) (same_at_past rfl ?_)
  rw [position, chainStart]
  refine same_at_after (sub_ok inside.2) (check_same_at Iff.rfl fun _ => ?_)
  exact times_same_at _ (chain_entry_same addressable bucket)

theorem chain_same (bucket : Nat) (inRange : bucket < file.bucketCount) :
    Same (chain file bucket) (file.chain bucket) := by
  refine same_after (bucket_offset_ok addressable _ (Nat.le_of_lt inRange)) (same_read ?_)
  refine bind_same_at (lift_same_at _) fun _ _ _ => bind_same_at (lift_same_at _) fun offset middle _ => ?_
  by_cases none : offset.toNat = 0
  · rw [if_pos none, if_pos none]
    rfl
  · rw [if_neg none, if_neg none]
    exact chain_at_same addressable bucket offset.toNat middle

theorem check_chains_same (buckets : List Nat) (inRange : ∀ bucket ∈ buckets, bucket < file.bucketCount) :
    Same (checkChains file buckets) (file.checkChains buckets) := by
  induction buckets with
  | nil => rfl
  | cons bucket rest ih =>
      obtain ⟨own, others⟩ := List.forall_mem_cons.mp inRange
      exact same_bind (chain_same addressable bucket own) fun _ _ => ih others

end Chains

section Rows

variable (index : Nat) (known : index < file.recordCount)

include known

theorem row_offset_ok : rowOffset file index = .ok (file.rowOffset index) := by
  have small := addressable.small
  have inside := File.row_inside addressable.ordered known
  simp only [File.rowOffset] at inside ⊢
  rw [rowOffset, mul_ok (by omega)]
  exact add_ok (by omega)

theorem row_same : Same (row file index) (file.row index) :=
  same_after (row_offset_ok addressable index known) (same_lift _)

end Rows

section Record

theorem section_slice_same (what : String) (start stop offset length : Nat) (ordered : start ≤ stop)
    (within : stop ≤ file.data.length) :
    Same (sectionSlice file what start stop offset length)
      (file.slice what start stop offset length) := by
  have small := addressable.small
  rw [sectionSlice, File.slice, word?]
  by_cases fits : offset + length < UInt64.size
  · rw [if_pos fits]
    dsimp only
    refine same_after (sub_ok ordered) ?_
    by_cases inside : offset + length ≤ stop - start
    · rw [if_pos inside, if_neg (Nat.not_lt.mpr inside)]
      refine same_after (add_ok (by omega)) (same_after (add_ok (by omega)) ?_)
      rw [slice_ok (by omega) (by omega) (by omega) within]
      refine congrArg (fun count => Except.ok ((file.data.drop (start + offset)).take count)) ?_
      omega
    · rw [if_neg inside, if_pos (Nat.not_le.mp inside)]
      rfl
  · rw [if_neg fits, if_neg (by omega)]
    rfl

variable (row : Row)

theorem name_same : Same (name file row) (file.name row) := by
  refine same_bind (section_slice_same addressable _ _ _ _ _ addressable.ordered.within (Nat.le_refl _))
    fun bytes _ => ?_
  cases Utf8.text? bytes <;> rfl

theorem counters_same : Same (counters file row) (file.counters row) := by
  have ordered := addressable.ordered
  rw [counters, File.counters, word?]
  by_cases fits : row.counterIndex.toNat * file.layout.counterWidth.size < UInt64.size
  · have few := row.counterCount.toNat_lt
    have width : file.layout.counterWidth.size ≤ 8 := by
      cases file.layout.counterWidth <;> decide
    have product := Nat.mul_le_mul (Nat.le_of_lt few) width
    have room : 2 ^ 32 * 8 < UInt64.size := by decide
    rw [if_pos fits]
    dsimp only
    rw [if_neg (Nat.not_le.mpr fits)]
    refine same_after (mul_ok (Nat.lt_of_le_of_lt product room)) ?_
    refine same_bind (section_slice_same addressable _ _ _ _ _ ordered.counters
      (Nat.le_trans ordered.names ordered.within)) fun bytes _ => ?_
    exact same_lift _
  · rw [if_neg fits]
    dsimp only
    rw [if_pos (Nat.not_lt.mp fits)]
    rfl

theorem values_same : Same (values file row) (file.values row) := by
  have ordered := addressable.ordered
  rw [values, File.values]
  cases stored : file.sections.valueProfiles with
  | none => rfl
  | some start =>
      have behind := ordered.names
      rw [Sections.countersEnd, stored, Option.getD_some] at behind
      dsimp only
      split
      · rfl
      · refine same_bind (section_slice_same addressable _ _ _ _ _ behind ordered.within)
          fun bytes _ => ?_
        exact same_lift _

theorem record_same (index : Nat) (known : index < file.recordCount) :
    Same (record file index) (file.record index) := by
  refine same_after (row_offset_ok addressable index known) ?_
  refine same_bind (row_same addressable index known) fun row _ => ?_
  refine same_bind (same_amend _ (name_same addressable row)) fun name _ => ?_
  refine same_bind (same_amend _ (counters_same addressable row)) fun counters _ => ?_
  exact same_bind (same_amend _ (values_same addressable row)) fun values _ => rfl

end Record

end Addressable

theorem buckets_exceed_iff (count start : Nat) {limit : Nat} (small : limit < UInt64.size) :
    ((word? (count * 8)).bind fun size => word? (size + start)).all (limit < ·) = true ↔
      limit < start + 8 * count := by
  by_cases fits : count * 8 < UInt64.size
  · rw [word?, if_pos fits, Option.bind_some, word_exceeds_iff small, Nat.add_comm, Nat.mul_comm]
  · rw [word?, if_neg fits]
    simp only [Option.bind_none, Option.all_none, true_iff]
    omega

theorem read_file_same (data : Bytes) (fits : data.length < UInt64.size) :
    SameAt readFile Indexed.readFile (Cursor.little data) := by
  refine bind_same_at (lift_same_at _) fun found afterMagic magicRan => ?_
  refine check_same_at Iff.rfl fun _ => ?_
  refine bind_same_at (lift_same_at _) fun word afterWord wordRan => ?_
  refine bind_same_at (lift_same_at _) fun version afterVersion versionRan => ?_
  refine bind_same_at (lift_same_at _) fun header afterHeader headerRan => ?_
  refine bind_same_at (lift_same_at _) fun headerSize afterSize sizeRan => ?_
  refine check_same_at Iff.rfl fun _ => ?_
  refine bind_same_at rfl fun current afterGet getRan => ?_
  refine bind_same_at (lift_same_at _) fun _ afterSum sumRan => ?_
  refine bind_same_at rfl fun whole afterWhole wholeRan => ?_
  refine bind_same_at (lift_same_at _) fun _ afterOrder orderRan => ?_
  obtain ⟨-, rfl⟩ := (Read.of_except_ran_iff _ _).mp versionRan
  obtain ⟨-, rfl⟩ := Read.position_ran sizeRan
  cases getRan
  obtain ⟨-, rfl⟩ := (Read.of_except_ran_iff _ _).mp sumRan
  cases wholeRan
  obtain ⟨ordered, rfl⟩ := (Read.of_except_ran_iff _ _).mp orderRan
  obtain ⟨-, -, rows, counters, names, within⟩ := (check_landmarks_ok_iff _ _ _).mp ordered
  have sameData : afterSize.data = data :=
    ((header_local _ _).onward headerRan).1.trans
      ((Read.u64_ran wordRan).2.data.trans (Read.u64_ran magicRan).2.data)
  have some := record_size_pos version.indexedLayout
  refine same_at_after (sub_ok rows) (same_at_after (rem_ok some) (check_same_at Iff.rfl fun _ => ?_))
  refine bind_same_at (lift_same_at _) fun _ table tableFound => ?_
  refine bind_same_at (lift_same_at _) fun count afterCount countRan => ?_
  refine same_at_past rfl ?_
  have bucketsStart : afterCount.offset = header.sections.hashTable + 8 := by
    rw [(Read.u64_ran countRan).2.offset, (Read.seek_ran tableFound).2.2]
  have small : header.sections.records < UInt64.size := by
    rw [sameData] at within
    omega
  refine check_same_at ?_ fun _ => same_at_after (div_ok some) rfl
  rw [Bool.or_eq_true, Bool.or_eq_true, decide_eq_true_iff, bucketsStart,
    buckets_exceed_iff count.toNat _ small]

theorem open_file_same (data : Bytes) (fits : data.length < UInt64.size) :
    Same (openFile data) (Indexed.openFile data) := by
  refine same_bind (same_read (read_file_same data fits)) fun file ran => ?_
  obtain ⟨after, ran⟩ := (Read.read_ok_iff _ _).mp ran
  refine same_bind ?_ fun _ _ => rfl
  exact check_chains_same (addressable_of_ran fits ran) _ fun bucket => List.mem_range.mp

end Guarded

end ExecCounts.Indexed
