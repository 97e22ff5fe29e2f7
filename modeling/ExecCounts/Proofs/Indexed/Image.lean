import ExecCounts.Proofs.Indexed.Written

set_option autoImplicit false

namespace ExecCounts.Indexed

section Places

variable (version : Version) (profile : Profile)

def bucketTotal : Nat := bucketCountFor profile.records.length

def chains : List (List ChainEntry) :=
  (List.range (bucketTotal profile)).map (chainFor (bucketTotal profile) profile.records)

def storedNames : List String := NamePool.distinct (profile.records.map FunctionRecord.name)

def chainsStart : Nat := version.indexedLayout.headerSize + 8 + 8 * bucketTotal profile

def recordsStart : Nat :=
  chainsStart version profile +
    ((chains profile).map (chainSize version.indexedLayout)).foldl (· + ·) 0

def countersStart : Nat :=
  recordsStart version profile + profile.records.length * version.indexedLayout.recordSize

def valuesStart : Nat :=
  countersStart version profile +
    (profile.records.flatMap FunctionRecord.counters).length *
      version.indexedLayout.counterWidth.size

def writtenSections (blobs : List Bytes) : Sections where
  hashTable := version.indexedLayout.headerSize
  records := recordsStart version profile
  counters := countersStart version profile
  valueProfiles :=
    if version.indexedLayout.hasValueProfiles then some (valuesStart version profile) else none
  names := valuesStart version profile + blobs.flatten.length

def fieldValue (sections : Sections) (sum : UInt32) : IndexedField → Nat
  | .hashType => 0
  | .checksum => sum.toNat
  | .hashTableOffset => sections.hashTable
  | .recordsOffset => sections.records
  | .countersOffset => sections.counters
  | .valueProfileOffset => sections.countersEnd
  | .namesOffset => sections.names

def fieldBytes (sections : Sections) (sum : UInt32) : Bytes :=
  version.indexedLayout.header.flatMap fun field =>
    ByteOrder.little.write version.indexedLayout.offsetWidth.size (fieldValue sections sum field)

def headerBytes (sections : Sections) (sum : UInt32) : Bytes :=
  le64 magic ++ (le64 (profile.variant.word (UInt64.ofNat version.tag)).toNat ++
    fieldBytes version sections sum)

def tableBytes : Bytes :=
  le64 (bucketTotal profile) ++ (chainOffsets version.indexedLayout (chainsStart version profile)
    (chains profile)).flatMap le64

def bodyBytes (blobs rows : List Bytes) : Bytes :=
  tableBytes version profile ++
    ((chains profile).map (chainBytes version.indexedLayout (recordsStart version profile))).flatten ++
    rows.flatten ++ (profile.records.map (counterBytes version.indexedLayout)).flatten ++
    blobs.flatten ++ (storedNames profile).flatMap Utf8.bytes

end Places

structure Image (version : Version) (profile : Profile) (data : Bytes) where
  blobs : List Bytes
  rows : List Bytes
  blobsWritten : profile.records.mapM (encodeBlob version.indexedLayout) = .ok blobs
  rowCount : rows.length = profile.records.length
  rowsWritten : ∀ (index : Nat) (record : FunctionRecord) (blob : Bytes),
    profile.records[index]? = some record → blobs[index]? = some blob →
      ∃ row, rows[index]? = some row ∧ encodeRow version.indexedLayout (storedNames profile)
        ((profile.records.take index).flatMap FunctionRecord.counters).length
        (blobs.take index).flatten.length record blob = .ok row
  entriesFit : ∀ chain ∈ chains profile, ∀ entry ∈ chain,
    recordsStart version profile + entry.index * version.indexedLayout.recordSize < UInt64.size →
      recordsStart version profile + entry.index * version.indexedLayout.recordSize ≤
        version.indexedLayout.offsetWidth.limit
  countersFit : ∀ record ∈ profile.records, ∀ count ∈ record.counters,
    count.toNat ≤ version.indexedLayout.counterWidth.limit
  fieldsFit : ∀ field ∈ version.indexedLayout.header,
    fieldValue (writtenSections version profile blobs)
      (crc32 (bodyBytes version profile blobs rows)) field < UInt64.size →
    fieldValue (writtenSections version profile blobs)
      (crc32 (bodyBytes version profile blobs rows)) field ≤
        version.indexedLayout.offsetWidth.limit
  shape : data = headerBytes version profile (writtenSections version profile blobs)
    (crc32 (bodyBytes version profile blobs rows)) ++ bodyBytes version profile blobs rows

theorem encode_header_ok (version : Version) (profile : Profile) (sections : Sections)
    (sum : UInt32) (header : Bytes)
    (encoded : encodeHeader version profile.variant sections sum = .ok header) :
    header = headerBytes version profile sections sum ∧
      ∀ field ∈ version.indexedLayout.header, fieldValue sections sum field < UInt64.size →
        fieldValue sections sum field ≤ version.indexedLayout.offsetWidth.limit := by
  simp only [encodeHeader, bind_ok_iff, pure_ok_iff] at encoded
  obtain ⟨fields, each, rfl⟩ := encoded
  obtain ⟨rfl, fit⟩ := map_m_ok_of (fun field bytes ok =>
    encode_uint_ok version.indexedLayout.offsetWidth (fieldValue sections sum field) bytes (by
      cases field <;> exact ok)) each
  refine ⟨?_, fit⟩
  rw [headerBytes, fieldBytes, List.flatMap_def, List.append_assoc]

theorem write_eq (version : Version) (profile : Profile) :
    write version profile = (do
      let blobs ← profile.records.mapM (encodeBlob version.indexedLayout)
      let encodedChains ← (chains profile).mapM
        (encodeChain version.indexedLayout (recordsStart version profile))
      let rows ← encodeRows version.indexedLayout (storedNames profile) 0 0
        (profile.records.zip blobs)
      let counters ← profile.records.mapM (encodeCounters version.indexedLayout.counterWidth)
      let body := tableBytes version profile ++ encodedChains.flatten ++ rows ++
        counters.flatten ++ blobs.flatten ++ (storedNames profile).flatMap Utf8.bytes
      return (← encodeHeader version profile.variant (writtenSections version profile blobs)
        (crc32 body)) ++ body) :=
  rfl

theorem take_zip {α β : Type} (firsts : List α) (seconds : List β)
    (same : firsts.length = seconds.length) (index : Nat) :
    ((firsts.zip seconds).take index).map Prod.fst = firsts.take index ∧
      ((firsts.zip seconds).take index).map Prod.snd = seconds.take index := by
  rw [List.map_take, List.map_take, List.map_fst_zip (Nat.le_of_eq same),
    List.map_snd_zip (Nat.le_of_eq same.symm)]
  exact ⟨rfl, rfl⟩

theorem image_of_write (version : Version) (profile : Profile) (data : Bytes)
    (written : write version profile = .ok data) : Nonempty (Image version profile data) := by
  rw [write_eq] at written
  simp only [bind_ok_iff, pure_ok_iff] at written
  obtain ⟨blobs, blobsOk, encodedChains, chainsOk, rowBytes, rowsOk, counters, countersOk, header,
    headerOk, rfl⟩ := written
  obtain ⟨rfl, entriesFit⟩ := map_m_ok_of (encode_chain_ok _ _) chainsOk
  obtain ⟨rfl, countersFit⟩ := map_m_ok_of (encode_counters_ok version.indexedLayout) countersOk
  obtain ⟨rows, rfl, rowCount, rowsEach⟩ := encode_rows_ok _ _ _ _ _ _ rowsOk
  obtain ⟨rfl, fieldsFit⟩ := encode_header_ok _ _ _ _ _ headerOk
  have blobCount := map_m_ok_length blobsOk
  refine ⟨{
    blobs, rows, entriesFit, countersFit, fieldsFit
    blobsWritten := blobsOk
    rowCount := by rw [rowCount, List.length_zip, blobCount, Nat.min_self]
    rowsWritten := ?_
    shape := rfl }⟩
  intro index record blob foundRecord foundBlob
  have found : (profile.records.zip blobs)[index]? = some (record, blob) :=
    List.getElem?_zip_eq_some.mpr ⟨foundRecord, foundBlob⟩
  obtain ⟨row, foundRow, rowOk⟩ := rowsEach index record blob found
  refine ⟨row, foundRow, ?_⟩
  obtain ⟨earlierRecords, earlierBlobs⟩ := take_zip profile.records blobs blobCount.symm index
  simpa only [Nat.zero_add, ← List.flatMap_map Prod.fst FunctionRecord.counters, earlierRecords,
    List.flatMap_def (f := Prod.snd), earlierBlobs] using rowOk

theorem length_header_bytes (version : Version) (profile : Profile) (sections : Sections)
    (sum : UInt32) :
    (headerBytes version profile sections sum).length = version.indexedLayout.headerSize := by
  simp only [headerBytes, fieldBytes, List.length_append, length_le64, List.length_flatMap,
    length_write, List.map_const', List.sum_replicate_nat, IndexedLayout.headerSize, Nat.mul_comm]
  omega

theorem length_chain_offsets (layout : IndexedLayout) (start : Nat)
    (chains : List (List ChainEntry)) :
    (chainOffsets layout start chains).length = chains.length := by
  induction chains generalizing start with
  | nil => rfl
  | cons chain chains ih => rw [chainOffsets, List.length_cons, ih, List.length_cons]

theorem length_chains (profile : Profile) : (chains profile).length = bucketTotal profile := by
  rw [chains, List.length_map, List.length_range]

theorem length_table_bytes (version : Version) (profile : Profile) :
    (tableBytes version profile).length = 8 + 8 * bucketTotal profile := by
  simp only [tableBytes, List.length_append, List.length_flatMap, length_le64, List.map_const',
    List.sum_replicate_nat, length_chain_offsets, length_chains, Nat.mul_comm]

theorem length_chains_bytes (layout : IndexedLayout) (recordsOffset : Nat)
    (chains : List (List ChainEntry)) :
    (chains.map (chainBytes layout recordsOffset)).flatten.length =
      (chains.map (chainSize layout)).foldl (· + ·) 0 := by
  rw [List.length_flatten, List.map_map, ← List.sum_eq_foldl]
  congr 1
  apply List.map_congr_left
  intro chain _
  exact length_chain_bytes layout recordsOffset chain

theorem length_counters_bytes (layout : IndexedLayout) (records : List FunctionRecord) :
    (records.map (counterBytes layout)).flatten.length =
      (records.flatMap FunctionRecord.counters).length * layout.counterWidth.size := by
  induction records with
  | nil => simp
  | cons record records ih =>
      rw [List.map_cons, List.flatten_cons, List.length_append, ih, length_counter_bytes,
        List.flatMap_cons, List.length_append, Nat.add_mul]

namespace Image

variable {version : Version} {profile : Profile} {data : Bytes}

theorem blob_count (image : Image version profile data) :
    image.blobs.length = profile.records.length :=
  map_m_ok_length image.blobsWritten

theorem length_row (image : Image version profile data) (row : Bytes) (written : row ∈ image.rows) :
    row.length = version.indexedLayout.recordSize := by
  obtain ⟨index, bound, rfl⟩ := List.getElem_of_mem written
  have recordBound : index < profile.records.length := image.rowCount ▸ bound
  have blobBound : index < image.blobs.length := image.blob_count ▸ recordBound
  obtain ⟨row, found, encoded⟩ := image.rowsWritten index _ _
    (List.getElem?_eq_getElem recordBound) (List.getElem?_eq_getElem blobBound)
  rw [List.getElem?_eq_getElem bound, Option.some.injEq] at found
  rw [found, (encode_row_ok _ _ _ _ _ _ _ encoded).1, length_row_bytes]

theorem length_rows (image : Image version profile data) (count : Nat) :
    (image.rows.take count).flatten.length =
      (image.rows.take count).length * version.indexedLayout.recordSize := by
  have each : ∀ row ∈ image.rows.take count, row.length = version.indexedLayout.recordSize :=
    fun row member => image.length_row row (List.mem_of_mem_take member)
  rw [List.length_flatten, List.map_congr_left each, List.map_const', List.sum_replicate_nat]

theorem length_all_rows (image : Image version profile data) :
    image.rows.flatten.length = profile.records.length * version.indexedLayout.recordSize := by
  have all := image.length_rows image.rows.length
  rwa [List.take_length, image.rowCount] at all

theorem whole (image : Image version profile data) :
    Placed data 0 (headerBytes version profile (writtenSections version profile image.blobs)
      (crc32 (bodyBytes version profile image.blobs image.rows)) ++
        bodyBytes version profile image.blobs image.rows) :=
  ⟨[], [], by rw [List.nil_append, List.append_nil]; exact image.shape, rfl⟩

theorem table_placed (image : Image version profile data) :
    Placed data version.indexedLayout.headerSize (tableBytes version profile ++
      (((chains profile).map
          (chainBytes version.indexedLayout (recordsStart version profile))).flatten ++
        (image.rows.flatten ++
          ((profile.records.map (counterBytes version.indexedLayout)).flatten ++
            (image.blobs.flatten ++ (storedNames profile).flatMap Utf8.bytes))))) := by
  have body := image.whole.second
  rw [length_header_bytes, Nat.zero_add] at body
  simpa only [bodyBytes, List.append_assoc] using body

theorem chains_placed (image : Image version profile data) :
    Placed data (chainsStart version profile) (((chains profile).map
          (chainBytes version.indexedLayout (recordsStart version profile))).flatten ++
        (image.rows.flatten ++
          ((profile.records.map (counterBytes version.indexedLayout)).flatten ++
            (image.blobs.flatten ++ (storedNames profile).flatMap Utf8.bytes)))) := by
  have placed := image.table_placed.second
  rwa [length_table_bytes, ← Nat.add_assoc] at placed

theorem rows_placed (image : Image version profile data) :
    Placed data (recordsStart version profile) (image.rows.flatten ++
      ((profile.records.map (counterBytes version.indexedLayout)).flatten ++
        (image.blobs.flatten ++ (storedNames profile).flatMap Utf8.bytes))) := by
  have placed := image.chains_placed.second
  rwa [length_chains_bytes] at placed

theorem counters_placed (image : Image version profile data) :
    Placed data (countersStart version profile)
      ((profile.records.map (counterBytes version.indexedLayout)).flatten ++
        (image.blobs.flatten ++ (storedNames profile).flatMap Utf8.bytes)) := by
  have placed := image.rows_placed.second
  rwa [length_all_rows] at placed

theorem blobs_placed (image : Image version profile data) :
    Placed data (valuesStart version profile)
      (image.blobs.flatten ++ (storedNames profile).flatMap Utf8.bytes) := by
  have placed := image.counters_placed.second
  rwa [length_counters_bytes] at placed

theorem names_placed (image : Image version profile data) :
    Placed data (valuesStart version profile + image.blobs.flatten.length)
      ((storedNames profile).flatMap Utf8.bytes) :=
  image.blobs_placed.second

theorem length_data (image : Image version profile data) :
    data.length = valuesStart version profile + image.blobs.flatten.length +
      ((storedNames profile).flatMap Utf8.bytes).length := by
  have shape := congrArg List.length image.shape
  rw [List.length_append, length_header_bytes] at shape
  simp only [bodyBytes, List.length_append, length_table_bytes, length_chains_bytes,
    length_all_rows, length_counters_bytes] at shape
  simp only [valuesStart, countersStart, recordsStart, chainsStart]
  omega

end Image

end ExecCounts.Indexed
