import ExecCounts.Proofs.Indexed.Image
import ExecCounts.Proofs.Version

set_option autoImplicit false

namespace ExecCounts.Indexed

theorem check_order_ok_iff (before : String × Nat) (places : List (String × Nat)) :
    checkOrder before places = .ok () ↔ (before :: places).IsChain (·.2 ≤ ·.2) := by
  induction places generalizing before with
  | nil => simp [checkOrder]
  | cons place rest ih =>
      rw [checkOrder, List.isChain_cons_cons]
      by_cases precedes : place.2 < before.2
      · rw [if_pos precedes]
        exact ⟨nofun, fun sorted => absurd sorted.1 (Nat.not_le.mpr precedes)⟩
      · rw [if_neg precedes, ih]
        exact ⟨fun sorted => ⟨Nat.not_lt.mp precedes, sorted⟩, And.right⟩

theorem check_landmarks_ok_iff (headerSize : Nat) (sections : Sections) (size : Nat) :
    checkOrder ("start", 0) (landmarks headerSize sections size) = .ok () ↔
      headerSize ≤ sections.hashTable ∧ sections.hashTable ≤ sections.records ∧
        sections.records ≤ sections.counters ∧ sections.counters ≤ sections.countersEnd ∧
          sections.countersEnd ≤ sections.names ∧ sections.names ≤ size := by
  rw [check_order_ok_iff, landmarks, Sections.countersEnd]
  cases sections.valueProfiles with
  | none => simp
  | some start => simp

theorem check_chains_ok_iff (file : File) (buckets : List Nat) : file.checkChains buckets = .ok () ↔
    ∀ bucket ∈ buckets, ∃ entries, file.chain bucket = .ok entries := by
  induction buckets with
  | nil => exact ⟨fun _ => nofun, fun _ => rfl⟩
  | cons bucket rest ih =>
      rw [File.checkChains, bind_ok_iff, List.forall_mem_cons, ← ih]
      exact ⟨fun ⟨entries, found, others⟩ => ⟨⟨entries, found⟩, others⟩,
        fun ⟨⟨entries, found⟩, others⟩ => ⟨entries, found, others⟩⟩

theorem power_pos {n : Nat} (power : isPowerOfTwo n = true) : 0 < n := by
  rw [Nat.pos_iff_ne_zero]
  rintro rfl
  cases power

theorem bucket_count_power (recordCount : Nat) : isPowerOfTwo (bucketCountFor recordCount) = true := by
  obtain ⟨exponent, power⟩ := Nat.isPowerOfTwo_nextPowerOfTwo (max recordCount 1)
  rw [isPowerOfTwo, bucketCountFor, power, Nat.log2_two_pow, Nat.one_shiftLeft, beq_self_eq_true]

theorem mem_chain_for (bucketCount : Nat) (records : List FunctionRecord) (bucket : Nat)
    (entry : ChainEntry) (member : entry ∈ chainFor bucketCount records bucket) :
    entry.index < records.length ∧ entry.hash.toNat % bucketCount = bucket := by
  obtain ⟨listed, home⟩ := List.mem_filter.mp member
  obtain ⟨⟨record, index⟩, found, rfl⟩ := List.mem_map.mp listed
  have bound : index < 0 + records.length := List.snd_lt_add_of_mem_zipIdx found
  rw [Nat.zero_add] at bound
  exact ⟨bound, beq_iff_eq.mp home⟩

theorem length_chain_for (bucketCount : Nat) (records : List FunctionRecord) (bucket : Nat) :
    (chainFor bucketCount records bucket).length ≤ records.length := by
  refine Nat.le_trans (List.length_filter_le _ _) (Nat.le_of_eq ?_)
  rw [List.length_map, List.length_zipIdx]

theorem chain_offsets_get (layout : IndexedLayout) (start : Nat) (chains : List (List ChainEntry))
    (index : Nat) (chain : List ChainEntry) (found : chains[index]? = some chain) :
    (chainOffsets layout start chains)[index]? = some (if chain.isEmpty then 0
      else start + ((chains.take index).map (chainSize layout)).sum) := by
  induction chains generalizing start index with
  | nil => cases found
  | cons first chains ih =>
      cases index with
      | zero =>
          cases found
          simp [chainOffsets]
      | succ index =>
          rw [chainOffsets, List.getElem?_cons_succ, ih _ index found, List.take_succ_cons,
            List.map_cons, List.sum_cons, Nat.add_assoc]

namespace Header

variable {width : Width} {number : IndexedField → Nat}

theorem read_yields (fields : List IndexedField)
    (fit : ∀ field ∈ fields, number field ≤ width.limit) (start : Nat) (rest : Bytes) :
    Read.Yields (Header.read width fields) .little start
      (fields.flatMap fun field => ByteOrder.little.write width.size (number field)) rest
      (fields.map fun field => (field, UInt64.ofNat (number field))) := by
  induction fields generalizing start with
  | nil => exact Read.pure_yields []
  | cons field fields ih =>
      rw [List.flatMap_cons]
      apply Read.bind_yields (Read.uint_yields width (number field) (fit field List.mem_cons_self))
      have others := ih (fun other member => fit other (List.mem_cons_of_mem _ member))
        (start + (ByteOrder.little.write width.size (number field)).length)
      exact Read.bind_yields_last others (Read.pure_yields _)

theorem value_of_fields (fields : List IndexedField) (field : IndexedField)
    (small : number field < UInt64.size) :
    Header.value? (fields.map fun field => (field, UInt64.ofNat (number field))) field =
      if field ∈ fields then some (number field) else none :=
  lookup_fields number fields field small

end Header

namespace Image

variable {version : Version} {profile : Profile} {data : Bytes}

def sections (image : Image version profile data) : Sections :=
  writtenSections version profile image.blobs

def sum (image : Image version profile data) : UInt32 :=
  crc32 (bodyBytes version profile image.blobs image.rows)

def header (image : Image version profile data) : Header :=
  version.indexedLayout.header.map fun field =>
    (field, UInt64.ofNat (fieldValue image.sections image.sum field))

def file (image : Image version profile data) : File where
  data := data
  version := version
  variant := profile.variant
  sections := image.sections
  bucketCount := bucketTotal profile
  recordCount := profile.records.length

theorem counters_end (image : Image version profile data) :
    image.sections.countersEnd = valuesStart version profile ∨
      image.sections.countersEnd = image.sections.names := by
  by_cases hasValues : version.indexedLayout.hasValueProfiles
  · left
    simp [sections, writtenSections, Sections.countersEnd, hasValues]
  · right
    simp [sections, writtenSections, Sections.countersEnd, hasValues]

theorem sections_ordered (image : Image version profile data) :
    image.sections.hashTable = version.indexedLayout.headerSize ∧
      image.sections.hashTable + 8 + 8 * bucketTotal profile ≤ image.sections.records ∧
      image.sections.records ≤ image.sections.counters ∧
      image.sections.counters ≤ image.sections.countersEnd ∧
      image.sections.countersEnd ≤ image.sections.names ∧
      image.sections.names ≤ data.length := by
  have size := image.length_data
  have ends := image.counters_end
  refine ⟨rfl, ?_⟩
  simp only [sections, writtenSections, valuesStart, countersStart, recordsStart, chainsStart]
    at size ends ⊢
  omega

theorem field_small (image : Image version profile data) (fits : data.length < UInt64.size)
    (field : IndexedField) : fieldValue image.sections image.sum field < UInt64.size := by
  obtain ⟨-, hashTable, records, counters, values, names⟩ := image.sections_ordered
  cases field with
  | hashType => exact Nat.zero_lt_of_lt fits
  | checksum => exact Nat.lt_trans image.sum.toNat_lt (by decide)
  | hashTableOffset | recordsOffset | countersOffset | valueProfileOffset | namesOffset =>
      simp only [fieldValue]
      omega

theorem header_value (image : Image version profile data) (fits : data.length < UInt64.size)
    (field : IndexedField) :
    image.header.value? field = if field ∈ version.indexedLayout.header then
      some (fieldValue image.sections image.sum field) else none :=
  Header.value_of_fields version.indexedLayout.header field (image.field_small fits field)

theorem header_sections (image : Image version profile data) (fits : data.length < UInt64.size) :
    image.header.sections = image.sections := by
  have hashTable : .hashTableOffset ∈ version.indexedLayout.header := by cases version <;> decide
  have records : .recordsOffset ∈ version.indexedLayout.header := by cases version <;> decide
  have counters : .countersOffset ∈ version.indexedLayout.header := by cases version <;> decide
  have names : .namesOffset ∈ version.indexedLayout.header := by cases version <;> decide
  simp only [Header.sections, Header.value, image.header_value fits, if_pos hashTable,
    if_pos records, if_pos counters, if_pos names, Option.getD_some, fieldValue]
  by_cases hasValues : version.indexedLayout.hasValueProfiles
  · have listed : .valueProfileOffset ∈ version.indexedLayout.header :=
      List.contains_iff_mem.mp hasValues
    simp only [if_pos listed, sections, writtenSections, Sections.countersEnd, if_pos hasValues,
      Option.getD_some]
  · have missing : .valueProfileOffset ∉ version.indexedLayout.header :=
      fun listed => hasValues (List.contains_iff_mem.mpr listed)
    simp only [if_neg missing, sections, writtenSections, if_neg hasValues]

theorem hash_type_zero (image : Image version profile data) (fits : data.length < UInt64.size) :
    image.header.value .hashType = 0 := by
  rw [Header.value, image.header_value fits]
  split <;> rfl

theorem check_sum_ok (image : Image version profile data) (fits : data.length < UInt64.size) :
    checkSum image.header (bodyBytes version profile image.blobs image.rows) = .ok () := by
  rw [checkSum, image.header_value fits]
  by_cases listed : .checksum ∈ version.indexedLayout.header
  · rw [if_pos listed]
    exact if_pos rfl
  · rw [if_neg listed]

theorem check_order_ok (image : Image version profile data) :
    checkOrder ("start", 0)
      (landmarks version.indexedLayout.headerSize image.sections data.length) = .ok () := by
  obtain ⟨hashTable, records, counters, ended, values, names⟩ := image.sections_ordered
  exact (check_landmarks_ok_iff _ _ _).mpr
    ⟨Nat.le_of_eq hashTable.symm, by omega, counters, ended, values, names⟩

theorem table_fits (image : Image version profile data) (fits : data.length < UInt64.size) :
    bucketTotal profile < UInt64.size := by
  obtain ⟨hashTable, records, counters, ended, values, names⟩ := image.sections_ordered
  omega

theorem row_small (image : Image version profile data) (fits : data.length < UInt64.size)
    (index : Nat) (known : index < profile.records.length) :
    recordsStart version profile + index * version.indexedLayout.recordSize < UInt64.size := by
  obtain ⟨-, -, -, ended, values, names⟩ := image.sections_ordered
  have before := Nat.mul_le_mul_right version.indexedLayout.recordSize (Nat.le_of_lt known)
  have counters : image.sections.counters = recordsStart version profile +
    profile.records.length * version.indexedLayout.recordSize := rfl
  omega

theorem record_table (image : Image version profile data) :
    image.sections.counters - image.sections.records =
      profile.records.length * version.indexedLayout.recordSize := by
  simp only [sections, writtenSections, countersStart, Nat.add_sub_cancel_left]

theorem read_header_yields (image : Image version profile data) (fits : data.length < UInt64.size)
    (rest : Bytes) :
    Read.Yields (Header.read version.indexedLayout.offsetWidth version.indexedLayout.header)
      .little 16 (fieldBytes version image.sections image.sum) rest image.header :=
  Header.read_yields version.indexedLayout.header
    (fun field listed => image.fieldsFit field listed (image.field_small fits field)) 16 rest

theorem read_file (image : Image version profile data) (fits : data.length < UInt64.size) :
    ∃ after : Cursor, readFile (Cursor.little data) = .ok image.file after := by
  obtain ⟨hashTable, records, -⟩ := image.sections_ordered
  have start : (Cursor.little data).rest = le64 magic ++
      (le64 (profile.variant.word (UInt64.ofNat version.tag)).toNat ++
        (fieldBytes version image.sections image.sum ++
          bodyBytes version profile image.blobs image.rows)) := by
    change data = _
    conv_lhs => rw [image.shape]
    simp only [headerBytes, List.append_assoc]
    rfl
  have headerEnd : 16 + (fieldBytes version image.sections image.sum).length =
      version.indexedLayout.headerSize := by
    rw [← length_header_bytes version profile image.sections image.sum]
    simp only [headerBytes, List.length_append, length_le64]
    omega
  unfold readFile
  -- magic
  refine Read.run_bind (Read.u64_yields magic) (Cursor.little data) rfl rfl start ?_
  intro cursor data₁ ordered placed remaining
  dsimp only
  rw [if_neg (by decide)]
  -- version and flags
  refine Read.run_bind (Read.u64_word_yields _) cursor ordered placed remaining ?_
  intro cursor data₂ ordered placed remaining
  rw [Variant.of_word_word, Version.require_tag]
  refine Read.run_bind_nil cursor (Read.of_except_yields version) ?_
  -- header fields
  refine Read.run_bind (image.read_header_yields fits _) cursor ordered placed remaining ?_
  intro cursor data₃ ordered placed remaining
  have sameData : cursor.data = data := by rw [data₃, data₂, data₁]; rfl
  rw [headerEnd] at placed
  refine Read.run_bind_nil cursor Read.position_yields ?_
  dsimp only
  rw [image.hash_type_zero fits, if_neg (fun differ => differ rfl), Read.run_get, remaining,
    image.check_sum_ok fits]
  refine Read.run_bind_nil cursor (Read.of_except_yields ()) ?_
  rw [Read.run_get, sameData, placed, image.header_sections fits, image.check_order_ok]
  refine Read.run_bind_nil cursor (Read.of_except_yields ()) ?_
  rw [image.record_table, if_neg (fun rest => rest (Nat.mul_mod_left _ _))]
  -- number of buckets
  have table := (image.table_placed.first (tableBytes version profile) _).first
    (le64 (bucketTotal profile)) _
  refine Read.seek_placed (hashTable ▸ table) ?_ cursor sameData ordered
  intro rest
  apply Read.bind_yields_last (Read.u64_yields _)
  rw [UInt64.toNat_ofNat_of_lt' (image.table_fits fits)]
  have sound : ¬ (!isPowerOfTwo (bucketTotal profile) || decide (image.sections.records <
      image.sections.hashTable + 8 + 8 * bucketTotal profile)) = true := by
    rw [bucketTotal, bucket_count_power, ← bucketTotal]
    simpa using records
  have rowSize : 0 < version.indexedLayout.recordSize := by cases version <;> decide
  rw [if_neg sound, Nat.mul_div_cancel _ rowSize]
  exact Read.pure_yields _

theorem row_index (image : Image version profile data) (index : Nat)
    (known : index < profile.records.length) :
    image.file.indexAt? (recordsStart version profile +
      index * version.indexedLayout.recordSize) = some index := by
  have rowSize : 0 < version.indexedLayout.recordSize := by cases version <;> decide
  simp only [File.indexAt?, file, File.layout, sections, writtenSections, Nat.add_sub_cancel_left,
    Nat.mul_mod_left, Nat.mul_div_cancel _ rowSize, Nat.le_add_right, known, true_and, if_true]

theorem entry_yields (image : Image version profile data) (fits : data.length < UInt64.size)
    (bucket : Nat) (inRange : bucket < bucketTotal profile) (entry : ChainEntry)
    (member : entry ∈ chainFor (bucketTotal profile) profile.records bucket) (start : Nat)
    (rest : Bytes) :
    Read.Yields (image.file.chainEntry bucket) .little start
      (entryBytes version.indexedLayout (recordsStart version profile) entry) rest entry := by
  obtain ⟨known, home⟩ := mem_chain_for _ _ _ _ member
  have small := image.row_small fits entry.index known
  have listed : chainFor (bucketTotal profile) profile.records bucket ∈ chains profile :=
    List.mem_map_of_mem (List.mem_range.mpr inRange)
  apply Read.bind_yields (Read.u64_word_yields entry.hash)
  apply Read.bind_yields_last (Read.uint_yields _ _ (image.entriesFit _ listed entry member small))
  have belongs : image.file.bucketOf entry.hash = bucket := home
  rw [UInt64.toNat_ofNat_of_lt' small, belongs, if_neg (fun differ => differ rfl),
    image.row_index entry.index known]
  exact Read.pure_yields _

theorem chain_found (bucket : Nat) (inRange : bucket < bucketTotal profile) :
    (chains profile)[bucket]? =
      some (chainFor (bucketTotal profile) profile.records bucket) := by
  rw [chains, List.getElem?_map, List.getElem?_range inRange, Option.map_some]

def chainStart (version : Version) (profile : Profile) (bucket : Nat) : Nat :=
  chainsStart version profile +
    (((chains profile).take bucket).map (chainSize version.indexedLayout)).sum

theorem bucket_placed (image : Image version profile data) (bucket : Nat)
    (inRange : bucket < bucketTotal profile) :
    Placed data (image.file.bucketOffset bucket)
      (le64 (if (chainFor (bucketTotal profile) profile.records bucket).isEmpty then 0
        else chainStart version profile bucket)) := by
  have table := (image.table_placed.first (tableBytes version profile) _).second
    (le64 (bucketTotal profile)) _
  rw [length_le64, List.flatMap_def] at table
  have offset := chain_offsets_get version.indexedLayout (chainsStart version profile) _ bucket _
    (chain_found bucket inRange)
  have known := List.getElem?_map.trans (congrArg (Option.map le64) offset)
  have placed := table.inside (Placed.part _ bucket known)
  rw [← List.map_take, ← List.flatMap_def, List.length_flatMap] at placed
  simp only [length_le64, List.map_const', List.sum_replicate_nat, List.length_take,
    length_chain_offsets, length_chains, Nat.min_eq_left (Nat.le_of_lt inRange)] at placed
  rw [Nat.mul_comm bucket 8] at placed
  exact placed

theorem chain_placed (image : Image version profile data) (bucket : Nat)
    (inRange : bucket < bucketTotal profile) :
    Placed data (chainStart version profile bucket)
      (chainBytes version.indexedLayout (recordsStart version profile)
        (chainFor (bucketTotal profile) profile.records bucket)) := by
  have known := List.getElem?_map.trans (congrArg (Option.map (chainBytes version.indexedLayout
    (recordsStart version profile))) (chain_found bucket inRange))
  have placed := (image.chains_placed.first _ _).inside (Placed.part _ bucket known)
  rw [← List.map_take, length_chains_bytes, ← List.sum_eq_foldl] at placed
  exact placed

theorem chain_within (version : Version) (profile : Profile) (bucket : Nat)
    (inRange : bucket < bucketTotal profile) :
    chainStart version profile bucket + chainSize version.indexedLayout
      (chainFor (bucketTotal profile) profile.records bucket) ≤ recordsStart version profile := by
  have found := chain_found bucket inRange
  obtain ⟨bound, same⟩ := List.getElem?_eq_some_iff.mp found
  have split := List.take_append_drop bucket ((chains profile).map (chainSize version.indexedLayout))
  have total := congrArg List.sum split
  rw [List.sum_append, ← List.map_take, ← List.map_drop, List.drop_eq_getElem_cons bound, same,
    List.map_cons, List.sum_cons] at total
  simp only [chainStart, recordsStart, ← List.sum_eq_foldl]
  omega

theorem chain_at_stored (image : Image version profile data) (fits : data.length < UInt64.size)
    (bucket : Nat) (inRange : bucket < bucketTotal profile) (cursor : Cursor)
    (sameData : cursor.data = data) (ordered : cursor.order = .little)
    (nonempty : ¬ (chainFor (bucketTotal profile) profile.records bucket).isEmpty) :
    let chain := chainFor (bucketTotal profile) profile.records bucket
    ∃ after : Cursor,
      image.file.chainAt bucket (chainStart version profile bucket) cursor =
        .ok (chain.take (UInt32.ofNat chain.length).toNat) after := by
  dsimp only
  have placed := image.chain_placed bucket inRange
  have within := chain_within version profile bucket inRange
  have entries := image.entry_yields fits bucket inRange
  generalize chainFor (bucketTotal profile) profile.records bucket = chain
    at placed within entries nonempty ⊢
  have behindTable : chainsStart version profile ≤ chainStart version profile bucket :=
    Nat.le_add_right _ _
  have tableEnd : image.file.bucketOffset image.file.bucketCount = chainsStart version profile :=
    rfl
  have limit : image.file.sections.records = recordsStart version profile := rfl
  have layout : image.file.layout = version.indexedLayout := rfl
  rw [chainSize, if_neg nonempty] at within
  rw [chainBytes, if_neg nonempty] at placed
  rw [File.chainAt]
  dsimp only
  rw [if_neg (by rw [tableEnd, limit]; omega)]
  refine Read.run_seek placed cursor sameData ordered ?_
  intro cursor rest sameData ordered moved remaining
  rw [List.append_assoc] at remaining
  refine Read.run_bind (Read.u32_yields _) cursor ordered moved remaining ?_
  intro cursor data₁ ordered moved remaining
  -- The number of entries is stored in 32 bits, and entries beyond it are not found.
  have counted : (UInt32.ofNat chain.length).toNat ≤ chain.length := Nat.mod_le _ _
  generalize (UInt32.ofNat chain.length).toNat = count at counted ⊢
  have countedSize := Nat.mul_le_mul_right version.indexedLayout.chainEntrySize counted
  rw [if_neg (by rw [limit, layout]; omega)]
  have length : (chain.take count).length = count := List.length_take_of_le counted
  rw [← List.take_append_drop count chain, List.flatMap_append, List.append_assoc] at remaining
  obtain ⟨after, ran, -⟩ := Read.times_yields _ (chain.take count)
    (fun entry member => entries entry (List.mem_of_mem_take member)) cursor ordered moved remaining
  rw [length] at ran
  exact ⟨after, ran⟩

theorem chain_stored (image : Image version profile data) (fits : data.length < UInt64.size)
    (bucket : Nat) (inRange : bucket < bucketTotal profile) :
    let chain := chainFor (bucketTotal profile) profile.records bucket
    image.file.chain bucket = .ok (chain.take (UInt32.ofNat chain.length).toNat) := by
  dsimp only
  apply Read.read_of_run
  refine Read.run_seek (image.bucket_placed bucket inRange) (Cursor.little data) rfl rfl ?_
  intro cursor rest sameData ordered moved remaining
  refine Read.run_bind (Read.u64_yields _) cursor ordered moved remaining ?_
  intro cursor data₁ ordered moved remaining
  by_cases empty : (chainFor (bucketTotal profile) profile.records bucket).isEmpty
  · rw [if_pos empty, List.isEmpty_iff.mp empty]
    exact ⟨cursor, rfl⟩
  · obtain ⟨-, -, start, ended, values, names⟩ := image.sections_ordered
    have within := chain_within version profile bucket inRange
    have records : image.sections.records = recordsStart version profile := rfl
    have small : chainStart version profile bucket < UInt64.size := by omega
    have positive : 0 < chainStart version profile bucket := by
      rw [chainStart, chainsStart]
      omega
    rw [if_neg empty, UInt64.toNat_ofNat_of_lt' small, if_neg (Nat.ne_of_gt positive)]
    exact image.chain_at_stored fits bucket inRange cursor (data₁.trans sameData) ordered empty

theorem chain_written (image : Image version profile data) (fits : data.length < UInt64.size)
    (few : profile.records.length < UInt32.size) (bucket : Nat)
    (inRange : bucket < bucketTotal profile) :
    image.file.chain bucket = .ok (chainFor (bucketTotal profile) profile.records bucket) := by
  have size := length_chain_for (bucketTotal profile) profile.records bucket
  rw [image.chain_stored fits bucket inRange,
    UInt32.toNat_ofNat_of_lt' (Nat.lt_of_le_of_lt size few), List.take_length]

theorem check_chains_ok (image : Image version profile data) (fits : data.length < UInt64.size)
    (few : profile.records.length < UInt32.size) (buckets : List Nat)
    (inRange : ∀ bucket ∈ buckets, bucket < bucketTotal profile) :
    image.file.checkChains buckets = .ok () :=
  (check_chains_ok_iff image.file buckets).mpr fun bucket member =>
    ⟨_, image.chain_written fits few bucket (inRange bucket member)⟩

theorem open_file (image : Image version profile data) (fits : data.length < UInt64.size)
    (few : profile.records.length < UInt32.size) : openFile data = .ok image.file := by
  have opened := Read.read_of_run (image.read_file fits)
  have sound := image.check_chains_ok fits few (List.range (bucketTotal profile))
    fun bucket member => List.mem_range.mp member
  rw [openFile, bind_ok_iff]
  refine ⟨image.file, opened, ?_⟩
  rw [bind_ok_iff]
  exact ⟨(), sound, rfl⟩

end Image

end ExecCounts.Indexed
