import ExecCounts.Proofs.Indexed.Opening
import ExecCounts.Proofs.NamePool
import ExecCounts.Proofs.Record
import ExecCounts.Proofs.Parts
import Mathlib.Algebra.Order.BigOperators.Group.List
import Mathlib.Algebra.Order.Ring.Nat

set_option autoImplicit false

namespace ExecCounts.Indexed

/-- Version 11 stores counters in 32 bits, and later versions store value profiles, which have no
room for more than 255 values at a site. -/
inductive Defect (version : Version) (record : FunctionRecord) : Prop where
  | counter (first : version = .v11)
      (wide : ∃ count ∈ record.counters, 0xffffffff < count.toNat)
  | values (later : 12 ≤ version.tag) (crowded : record.Crowded)

theorem defect_iff (version : Version) (record : FunctionRecord) : Defect version record ↔
    (version = .v11 ∧ ∃ count ∈ record.counters, 0xffffffff < count.toNat) ∨
      (12 ≤ version.tag ∧ record.Crowded) :=
  ⟨fun | .counter first wide => .inl ⟨first, wide⟩ | .values later crowded => .inr ⟨later, crowded⟩,
    fun | .inl both => .counter both.1 both.2 | .inr both => .values both.1 both.2⟩

def valuesSize (version : Version) (profile : Profile) : Nat :=
  if version.indexedLayout.hasValueProfiles then (profile.records.map FunctionRecord.blobSize).sum
  else 0

def laidOutSize (version : Version) (profile : Profile) : Nat :=
  valuesStart version profile + valuesSize version profile +
    ((storedNames profile).flatMap Utf8.bytes).length

theorem encode_uint_writes (width : Width) (n : Nat) (word : n < UInt64.size) :
    Writes (n ≤ width.limit) (encodeUint width n) := by
  cases width with
  | four => exact (Writes.check _ _).congr Nat.lt_succ_iff
  | eight => exact (Writes.pure _).congr (iff_of_true trivial (Nat.le_of_lt_succ word))

theorem encode_uint_small (width : Width) (n : Nat) (small : n < UInt32.size) :
    ∃ bytes, encodeUint width n = .ok bytes := by
  cases width with
  | four => exact ⟨_, if_pos small⟩
  | eight => exact ⟨_, rfl⟩

theorem encode_length_small (what : String) (n : Nat) (small : n < UInt32.size) :
    ∃ bytes, encodeLength what n = .ok bytes :=
  ⟨_, if_pos small⟩

section Parts

variable (layout : IndexedLayout)

theorem encode_blob_cases (record : FunctionRecord) :
    (encodeBlob layout record = .ok [] ∧
      (layout.hasValueProfiles = true → record.pruned.values = none)) ∨
    ∃ values, encodeBlob layout record = (Blob.encode values).mapError (·.inFunction record.id) ∧
      layout.hasValueProfiles = true ∧ record.pruned.values = some values := by
  rw [encodeBlob, record.pruned_values]
  cases record.values with
  | none => exact .inl ⟨rfl, fun _ => rfl⟩
  | some values =>
      rw [Option.filter_some]
      dsimp only
      cases values.isEmpty with
      | true => exact .inl ⟨rfl, fun _ => rfl⟩
      | false =>
          cases layout.hasValueProfiles with
          | false => exact .inl ⟨rfl, nofun⟩
          | true => exact .inr ⟨values, rfl, rfl, rfl⟩

theorem encode_blob_rejects (record : FunctionRecord) :
    Rejects (fun other => other = record ∧ (layout.hasValueProfiles = true ∧
        ¬ ∀ values ∈ record.pruned.values, Blob.Storable values)) (encodeBlob layout record) := by
  obtain ⟨encoded, unstored⟩ | ⟨values, encoded, has, kept⟩ := encode_blob_cases layout record
  · rw [encoded]
    refine .pure [] fun _ unfit => unfit.2.2 ?_
    rw [unstored unfit.2.1]
    exact nofun
  · rw [encoded, has, kept]
    refine ((Blob.encode_writes values).rejects record).congr fun other => ?_
    simp

theorem length_encoded_blob (record : FunctionRecord) (blob : Bytes)
    (encoded : encodeBlob layout record = .ok blob) :
    blob.length = if layout.hasValueProfiles then record.blobSize else 0 := by
  obtain ⟨nothing, unstored⟩ | ⟨values, found, has, kept⟩ := encode_blob_cases layout record
  · cases nothing.symm.trans encoded
    split
    · next has => rw [FunctionRecord.blobSize, unstored has]; rfl
    · rfl
  · rw [found, map_error_ok_iff] at encoded
    rw [(Blob.encode_ok values blob encoded).2, Blob.length_blob_bytes, if_pos has,
      FunctionRecord.blobSize, kept]
    rfl

theorem encode_counters_rejects (width : Width) (record : FunctionRecord) :
    Rejects (fun other => other = record ∧ ¬ ∀ count ∈ record.counters, count.toNat ≤ width.limit)
      (encodeCounters width record) := by
  have counters : Writes (∀ count ∈ record.counters, count.toNat ≤ width.limit)
      (record.counters.mapM fun count => encodeUint width count.toNat) :=
    .map_m fun count _ => encode_uint_writes width count.toNat count.toNat_lt
  rw [encodeCounters, map_m_map_error]
  exact (counters.rejects record).returning _

theorem encode_chain_small (recordsOffset : Nat) (chain : List ChainEntry)
    (small : ∀ entry ∈ chain, recordsOffset + entry.index * layout.recordSize < UInt32.size) :
    ∃ bytes, encodeChain layout recordsOffset chain = .ok bytes := by
  by_cases empty : chain.isEmpty
  · exact ⟨[], if_pos empty⟩
  · have each : ∀ entry ∈ chain, ∃ bytes, (do
        let offset ← encodeUint layout.offsetWidth (recordsOffset + entry.index * layout.recordSize)
        return le64 entry.hash.toNat ++ offset) = Except.ok (ε := Failure) bytes := by
      intro entry listed
      obtain ⟨offset, encoded⟩ := encode_uint_small layout.offsetWidth _ (small entry listed)
      rw [encoded]
      exact ⟨_, rfl⟩
    obtain ⟨entries, encoded⟩ := (map_m_succeeds_iff _ chain).mpr each
    rw [encodeChain, if_neg empty, encoded]
    exact ⟨_, rfl⟩

theorem encode_row_small (names : List String) (counterIndex valueOffset : Nat)
    (record : FunctionRecord) (blob : Bytes) (listed : record.name ∈ names)
    (namesSmall : (names.flatMap Utf8.bytes).length < UInt32.size)
    (countersSmall : counterIndex + record.counters.length < UInt32.size)
    (blobsSmall : valueOffset + blob.length < UInt32.size) :
    ∃ row, encodeRow layout names counterIndex valueOffset record blob = .ok row := by
  have name := (NamePool.offset_placed record.name names listed).within
  obtain ⟨nameOffset, nameOk⟩ := encode_uint_small layout.offsetWidth
    (NamePool.offset 0 record.name names) (by omega)
  obtain ⟨nameLength, nameLengthOk⟩ := encode_length_small "name" (Utf8.bytes record.name).length
    (by omega)
  obtain ⟨index, indexOk⟩ := encode_uint_small layout.offsetWidth counterIndex (by omega)
  obtain ⟨count, countOk⟩ := encode_length_small "counter count" record.counters.length (by omega)
  have place : (if blob.isEmpty then 0 else valueOffset) < UInt32.size := by
    split
    · decide
    · omega
  obtain ⟨offset, offsetOk⟩ := encode_uint_small layout.offsetWidth _ place
  obtain ⟨length, lengthOk⟩ := encode_length_small "value profile" blob.length (by omega)
  rw [encodeRow, nameOk, nameLengthOk, indexOk, countOk]
  by_cases has : layout.hasValueProfiles
  · rw [offsetOk, lengthOk]
    exact ⟨_, if_pos has⟩
  · exact ⟨_, if_neg has⟩

theorem encode_rows_small (names : List String) (counterIndex valueOffset : Nat)
    (records : List (FunctionRecord × Bytes)) (listed : ∀ record ∈ records, record.1.name ∈ names)
    (namesSmall : (names.flatMap Utf8.bytes).length < UInt32.size)
    (countersSmall : counterIndex + (records.flatMap (·.1.counters)).length < UInt32.size)
    (blobsSmall : valueOffset + (records.flatMap Prod.snd).length < UInt32.size) :
    ∃ rows, encodeRows layout names counterIndex valueOffset records = .ok rows := by
  induction records generalizing counterIndex valueOffset with
  | nil => exact ⟨[], rfl⟩
  | cons head rest ih =>
      obtain ⟨record, blob⟩ := head
      obtain ⟨own, others⟩ := List.forall_mem_cons.mp listed
      simp only [List.flatMap_cons, List.length_append] at countersSmall blobsSmall
      obtain ⟨row, rowOk⟩ := encode_row_small layout names counterIndex valueOffset record blob own
        namesSmall (by omega) (by omega)
      obtain ⟨rows, rowsOk⟩ := ih (counterIndex + record.counters.length)
        (valueOffset + blob.length) others (by omega) (by omega)
      refine ⟨row ++ rows, ?_⟩
      rw [encodeRows, rowOk, rowsOk]
      rfl

end Parts

theorem length_stored_blobs (layout : IndexedLayout) (records : List FunctionRecord)
    (blobs : List Bytes) (stored : records.mapM (encodeBlob layout) = .ok blobs) :
    blobs.flatten.length =
      if layout.hasValueProfiles then (records.map FunctionRecord.blobSize).sum else 0 := by
  rw [map_m_ok_iff] at stored
  induction stored with
  | nil => split <;> rfl
  | @cons record blob records blobs own _ ih =>
      rw [List.flatten_cons, List.length_append, ih, length_encoded_blob layout record blob own]
      split <;> rfl

theorem laid_out_size_eq (version : Version) (profile : Profile) (data : Bytes)
    (written : write version profile = .ok data) : data.length = laidOutSize version profile := by
  obtain ⟨image⟩ := image_of_write version profile data written
  rw [image.length_data, length_stored_blobs _ _ image.blobs image.blobsWritten, laidOutSize,
    valuesSize]

theorem encode_header_small (version : Version) (variant : Variant) (sections : Sections)
    (sum : UInt32) (small : ∀ field, fieldValue sections sum field < UInt32.size) :
    ∃ header, encodeHeader version variant sections sum = .ok header := by
  have each : ∀ field ∈ version.indexedLayout.header, ∃ bytes,
      encodeUint version.indexedLayout.offsetWidth (fieldValue sections sum field) = .ok bytes :=
    fun field _ => encode_uint_small _ _ (small field)
  obtain ⟨fields, encoded⟩ := (map_m_succeeds_iff _ _).mpr each
  rw [encodeHeader]
  change ∃ header, (version.indexedLayout.header.mapM fun field =>
    encodeUint version.indexedLayout.offsetWidth (fieldValue sections sum field)) >>= _ = _
  rw [encoded]
  exact ⟨_, rfl⟩

theorem counters_unfit_iff (version : Version) (counters : List Count) :
    (¬ ∀ count ∈ counters, count.toNat ≤ version.indexedLayout.counterWidth.limit) ↔
      version = .v11 ∧ ∃ count ∈ counters, 0xffffffff < count.toNat := by
  have wide : ∀ count : Count, ¬ count.toNat ≤ version.indexedLayout.counterWidth.limit ↔
      version = .v11 ∧ 0xffffffff < count.toNat := by
    intro count
    have word := count.toNat_lt
    cases version <;> simp [Version.indexedLayout, Width.limit, UInt32.size, UInt64.size] <;> omega
  simp only [not_forall, exists_prop, wide, and_left_comm, exists_and_left]

section Written

variable {version : Version} {profile : Profile}
  (small : laidOutSize version profile < UInt32.size)

include small

theorem sections_small : recordsStart version profile +
    profile.records.length * version.indexedLayout.recordSize < UInt32.size ∧
      (profile.records.flatMap FunctionRecord.counters).length < UInt32.size ∧
        valuesStart version profile + valuesSize version profile < UInt32.size ∧
          ((storedNames profile).flatMap Utf8.bytes).length < UInt32.size := by
  have width : 0 < version.indexedLayout.counterWidth.size := by cases version <;> decide
  have counters := Nat.le_mul_of_pos_right
    (profile.records.flatMap FunctionRecord.counters).length width
  simp only [laidOutSize, valuesStart, countersStart] at small ⊢
  omega

theorem chains_small : ∃ encoded, (chains profile).mapM
    (encodeChain version.indexedLayout (recordsStart version profile)) = .ok encoded := by
  refine (map_m_succeeds_iff _ _).mpr fun chain listed => ?_
  obtain ⟨bucket, -, rfl⟩ := List.mem_map.mp listed
  refine encode_chain_small _ _ _ fun entry member => ?_
  have index := (mem_chain_for _ _ _ entry member).1
  have before := Nat.mul_le_mul_right version.indexedLayout.recordSize (Nat.le_of_lt index)
  have rows := (sections_small small).1
  omega

theorem rows_small (blobs : List Bytes)
    (stored : profile.records.mapM (encodeBlob version.indexedLayout) = .ok blobs) :
    ∃ rows, encodeRows version.indexedLayout (storedNames profile) 0 0 (profile.records.zip blobs) =
      .ok rows := by
  have count := map_m_ok_length stored
  have length := length_stored_blobs _ _ blobs stored
  obtain ⟨-, counters, values, names⟩ := sections_small small
  refine encode_rows_small _ _ 0 0 _ (fun record listed => ?_) names ?_ ?_
  · rw [storedNames, NamePool.mem_distinct]
    exact List.mem_map_of_mem (List.of_mem_zip listed).1
  · rw [← List.flatMap_map Prod.fst FunctionRecord.counters,
      List.map_fst_zip (Nat.le_of_eq count.symm)]
    omega
  · rw [List.flatMap_def, List.map_snd_zip (Nat.le_of_eq count), length]
    rw [valuesSize] at values
    omega

theorem header_small (blobs : List Bytes) (sum : UInt32)
    (stored : profile.records.mapM (encodeBlob version.indexedLayout) = .ok blobs) :
    ∃ header, encodeHeader version profile.variant (writtenSections version profile blobs) sum =
      .ok header := by
  have length := length_stored_blobs _ _ blobs stored
  obtain ⟨-, -, values, -⟩ := sections_small small
  have ordered : version.indexedLayout.headerSize ≤ recordsStart version profile ∧
      recordsStart version profile ≤ countersStart version profile ∧
        countersStart version profile ≤ valuesStart version profile := by
    simp only [valuesStart, countersStart, recordsStart, chainsStart]
    omega
  have names : (writtenSections version profile blobs).names < UInt32.size := by
    rwa [writtenSections, length, ← valuesSize]
  have ends : (writtenSections version profile blobs).countersEnd ≤
      (writtenSections version profile blobs).names := by
    rw [Sections.countersEnd, writtenSections]
    cases version.indexedLayout.hasValueProfiles
    · exact Nat.le_refl _
    · exact Nat.le_add_right _ _
  refine encode_header_small version profile.variant _ sum fun field => ?_
  cases field with
  | hashType => exact Nat.zero_lt_of_lt names
  | checksum => exact sum.toNat_lt
  | valueProfileOffset => exact Nat.lt_of_le_of_lt ends names
  | namesOffset => exact names
  | hashTableOffset | recordsOffset | countersOffset =>
      simp only [fieldValue, writtenSections] at names ⊢
      omega

theorem blob_size_small (record : FunctionRecord) (listed : record ∈ profile.records)
    (has : version.indexedLayout.hasValueProfiles = true) : record.blobSize < UInt32.size := by
  have own : record.blobSize ≤ (profile.records.map FunctionRecord.blobSize).sum :=
    List.le_sum_of_mem (List.mem_map_of_mem listed)
  rw [laidOutSize, valuesSize, if_pos has] at small
  omega

theorem write_rejects_unfit : Rejects (fun record =>
    (record ∈ profile.records ∧ (version.indexedLayout.hasValueProfiles = true ∧
      ¬ ∀ values ∈ record.pruned.values, Blob.Storable values)) ∨
    (record ∈ profile.records ∧
      ¬ ∀ count ∈ record.counters, count.toNat ≤ version.indexedLayout.counterWidth.limit))
    (write version profile) := by
  rw [write_eq]
  refine (Rejects.map_m fun record _ => encode_blob_rejects _ record).bind fun blobs stored => ?_
  obtain ⟨encodedChains, chainsOk⟩ := chains_small small
  obtain ⟨rows, rowsOk⟩ := rows_small small blobs stored
  rw [chainsOk, rowsOk]
  have counters : Rejects _ (profile.records.mapM
      (encodeCounters version.indexedLayout.counterWidth)) :=
    .map_m fun record _ => encode_counters_rejects _ record
  -- The checksum is all that the header takes from the body.
  refine (counters.bind fun encodedCounters _ => ?_).congr fun record => iff_of_eq (or_false _)
  dsimp only
  generalize crc32 _ = sum
  obtain ⟨header, headerOk⟩ := header_small small blobs sum stored
  rw [headerOk]
  exact .pure _ fun _ => id

theorem write_rejects :
    Rejects (fun record => record ∈ profile.records ∧ Defect version record)
      (write version profile) := by
  have hasValues : version.indexedLayout.hasValueProfiles = true ↔ 12 ≤ version.tag := by
    cases version <;> decide
  refine (write_rejects_unfit small).congr fun record => ?_
  rw [← and_or_left, defect_iff, hasValues, counters_unfit_iff, or_comm]
  refine and_congr_right fun listed => or_congr_right (and_congr_right fun later => ?_)
  rw [record.storable_iff (blob_size_small small record listed (hasValues.mpr later)), not_not]

end Written

end ExecCounts.Indexed
