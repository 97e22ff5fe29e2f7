import ExecCounts.Proofs.Indexed.Opening
import ExecCounts.Proofs.NamePool
import ExecCounts.Proofs.Transcript
import ExecCounts.Proofs.Value.Blob

set_option autoImplicit false

namespace ExecCounts

def FunctionRecord.stored (layout : IndexedLayout) (record : FunctionRecord) : FunctionRecord :=
  { record with
    values := record.values.filter fun values => layout.hasValueProfiles && !values.isEmpty }

namespace Indexed

theorem read_row_yields (layout : IndexedLayout) (nameOffset nameLength : Nat) (hash : UInt64)
    (counterIndex counterCount valueOffset valueLength : Nat)
    (nameFits : nameOffset ≤ layout.offsetWidth.limit)
    (counterFits : counterIndex ≤ layout.offsetWidth.limit)
    (valueFits : layout.hasValueProfiles → valueOffset ≤ layout.offsetWidth.limit) (start : Nat)
    (rest : Bytes) :
    Read.Yields (File.readRow layout) .little start
      (rowBytes layout nameOffset nameLength hash counterIndex counterCount valueOffset valueLength)
      rest {
        nameOffset := UInt64.ofNat nameOffset
        nameLength := UInt32.ofNat nameLength
        hash
        counterIndex := UInt64.ofNat counterIndex
        counterCount := UInt32.ofNat counterCount
        valueOffset := if layout.hasValueProfiles then UInt64.ofNat valueOffset else 0
        valueLength := if layout.hasValueProfiles then UInt32.ofNat valueLength else 0 } := by
  apply Read.bind_yields (Read.uint_yields _ _ nameFits)
  apply Read.bind_yields (Read.u32_yields _)
  apply Read.bind_yields (Read.u64_word_yields hash)
  apply Read.bind_yields (Read.uint_yields _ _ counterFits)
  apply Read.bind_yields (Read.u32_yields _)
  by_cases hasValues : layout.hasValueProfiles
  · simp only [if_pos hasValues]
    apply Read.bind_yields (Read.uint_yields _ _ (valueFits hasValues))
    exact Read.bind_yields_last (Read.u32_yields _) (Read.pure_yields _)
  · simp only [if_neg hasValues]
    exact Read.pure_yields _

theorem slice_of_placed (file : File) (what : String) (section_start stop offset : Nat)
    (piece : Bytes) (placed : Placed file.data (section_start + offset) piece)
    (within : offset + piece.length ≤ stop - section_start) :
    file.slice what section_start stop offset piece.length = .ok piece := by
  rw [File.slice, if_pos within, placed.slice]

theorem encode_blob_stored (layout : IndexedLayout) (record : FunctionRecord) (blob : Bytes)
    (encoded : encodeBlob layout record = .ok blob) :
    (blob = [] ∧ (record.stored layout).values = none) ∨ ∃ values : ValueProfile,
      Blob.encode values = .ok blob ∧ layout.hasValueProfiles ∧
        (record.stored layout).values = some values := by
  rw [encodeBlob] at encoded
  cases found : record.values with
  | none =>
      rw [found, Except.ok.injEq] at encoded
      exact .inl ⟨encoded.symm, by rw [FunctionRecord.stored, found]; rfl⟩
  | some values =>
      rw [found] at encoded
      dsimp only at encoded
      by_cases dropped : values.isEmpty || !layout.hasValueProfiles
      · rw [if_pos dropped, Except.ok.injEq] at encoded
        refine .inl ⟨encoded.symm, ?_⟩
        simp only [FunctionRecord.stored, found, Option.filter_some]
        rw [if_neg]
        cases empty : values.isEmpty <;> cases has : layout.hasValueProfiles <;> simp_all
      · rw [if_neg dropped, map_error_ok_iff] at encoded
        rw [Bool.or_eq_true, not_or, Bool.not_eq_true, Bool.not_eq_true, Bool.not_eq_false'] at dropped
        refine .inr ⟨values, encoded, dropped.2, ?_⟩
        simp only [FunctionRecord.stored, found, Option.filter_some, dropped.1, dropped.2]
        rfl

namespace Image

variable {version : Version} {profile : Profile} {data : Bytes}

def nameOffset (profile : Profile) (record : FunctionRecord) : Nat :=
  NamePool.offset 0 record.name (storedNames profile)

def counterIndex (profile : Profile) (index : Nat) : Nat :=
  ((profile.records.take index).flatMap FunctionRecord.counters).length

def valueOffset (image : Image version profile data) (index : Nat) (blob : Bytes) : Nat :=
  if blob.isEmpty then 0 else (image.blobs.take index).flatten.length

theorem name_placed (image : Image version profile data) (record : FunctionRecord)
    (member : record ∈ profile.records) :
    Placed data (image.sections.names + nameOffset profile record) (Utf8.bytes record.name) := by
  refine image.names_placed.inside (NamePool.offset_placed record.name (storedNames profile) ?_)
  exact (NamePool.mem_distinct _ _).mpr (List.mem_map_of_mem member)

theorem counters_inside (profile : Profile) (layout : IndexedLayout) (index : Nat)
    (record : FunctionRecord) (found : profile.records[index]? = some record) :
    Placed (profile.records.map (counterBytes layout)).flatten
      (counterIndex profile index * layout.counterWidth.size) (counterBytes layout record) := by
  have known := List.getElem?_map.trans (congrArg (Option.map (counterBytes layout)) found)
  have placed := Placed.part _ index known
  rwa [← List.map_take, length_counters_bytes] at placed

def rowAt (image : Image version profile data) (index : Nat) (record : FunctionRecord)
    (blob : Bytes) : Row where
  nameOffset := UInt64.ofNat (nameOffset profile record)
  nameLength := UInt32.ofNat (Utf8.bytes record.name).length
  hash := record.hash
  counterIndex := UInt64.ofNat (counterIndex profile index)
  counterCount := UInt32.ofNat record.counters.length
  valueOffset := if version.indexedLayout.hasValueProfiles then
    UInt64.ofNat (image.valueOffset index blob) else 0
  valueLength := if version.indexedLayout.hasValueProfiles then UInt32.ofNat blob.length else 0

section Record

variable (image : Image version profile data) (index : Nat) (record : FunctionRecord)
  (blob : Bytes) (found : profile.records[index]? = some record)
  (blobFound : image.blobs[index]? = some blob)

include blobFound in
theorem value_offset_small (fits : data.length < UInt64.size) :
    image.valueOffset index blob < UInt64.size := by
  have within := ((image.blobs_placed.first _ _).inside
    (Placed.part image.blobs index blobFound)).within
  rw [valueOffset]
  split <;> omega

include image found

theorem name_offset_small (fits : data.length < UInt64.size) :
    nameOffset profile record < UInt64.size := by
  have within := (image.name_placed record (List.mem_of_getElem? found)).within
  omega

theorem counter_index_small (fits : data.length < UInt64.size) :
    counterIndex profile index * version.indexedLayout.counterWidth.size < UInt64.size ∧
      counterIndex profile index < UInt64.size := by
  obtain ⟨-, -, -, ended, values, names⟩ := image.sections_ordered
  have within := ((image.counters_placed.first _ _).inside
    (counters_inside profile version.indexedLayout index record found)).within
  have size : 0 < version.indexedLayout.counterWidth.size := by cases version <;> decide
  have larger := Nat.le_mul_of_pos_right (counterIndex profile index) size
  omega

include blobFound

theorem row_placed : Placed data (recordsStart version profile +
      index * version.indexedLayout.recordSize)
      (rowBytes version.indexedLayout (nameOffset profile record) (Utf8.bytes record.name).length
        record.hash (counterIndex profile index) record.counters.length
        (image.valueOffset index blob) blob.length) ∧
    RowFits version.indexedLayout (nameOffset profile record) (Utf8.bytes record.name).length
      (counterIndex profile index) record.counters.length (image.valueOffset index blob)
      blob.length := by
  obtain ⟨row, rowFound, encoded⟩ := image.rowsWritten index record blob found blobFound
  obtain ⟨shape, rowFits⟩ := encode_row_ok _ _ _ _ _ _ _ encoded
  refine ⟨?_, rowFits⟩
  have placed := (image.rows_placed.first _ _).inside (Placed.part image.rows index rowFound)
  obtain ⟨bound, -⟩ := List.getElem?_eq_some_iff.mp rowFound
  rw [image.length_rows, List.length_take, Nat.min_eq_left (Nat.le_of_lt bound), shape] at placed
  exact placed

theorem row_read (fits : data.length < UInt64.size) :
    image.file.row index = .ok (image.rowAt index record blob) := by
  obtain ⟨placed, rowFits⟩ := image.row_placed index record blob found blobFound
  have nameFits := rowFits.nameOffset (image.name_offset_small index record found fits)
  have counterFits := rowFits.counterIndex (image.counter_index_small index record found fits).2
  have valueFits := fun has =>
    rowFits.valueOffset has (image.value_offset_small index blob blobFound fits)
  apply Read.read_of_run
  refine Read.seek_placed placed ?_ (Cursor.little data) rfl rfl
  exact read_row_yields version.indexedLayout _ _ _ _ _ _ _ nameFits counterFits valueFits _

theorem name_read (fits : data.length < UInt64.size) :
    image.file.name (image.rowAt index record blob) = .ok record.name := by
  obtain ⟨-, rowFits⟩ := image.row_placed index record blob found blobFound
  have placed := image.name_placed record (List.mem_of_getElem? found)
  have within := placed.within
  have offset : (UInt64.ofNat (nameOffset profile record)).toNat = nameOffset profile record :=
    UInt64.toNat_ofNat_of_lt' (image.name_offset_small index record found fits)
  have length : (UInt32.ofNat (Utf8.bytes record.name).length).toNat =
      (Utf8.bytes record.name).length := UInt32.toNat_ofNat_of_lt' rowFits.nameLength
  have sliced := slice_of_placed image.file "name" image.sections.names data.length _ _ placed
    (by omega)
  simp only [File.name, rowAt, offset, length]
  rw [bind_ok_iff]
  refine ⟨Utf8.bytes record.name, sliced, ?_⟩
  rw [Utf8.text_bytes]
  rfl

theorem counters_read (fits : data.length < UInt64.size) :
    image.file.counters (image.rowAt index record blob) = .ok record.counters := by
  obtain ⟨-, rowFits⟩ := image.row_placed index record blob found blobFound
  obtain ⟨offsetSmall, indexSmall⟩ := image.counter_index_small index record found fits
  have inner := counters_inside profile version.indexedLayout index record found
  have within := inner.within
  have placed := (image.counters_placed.first _ _).inside inner
  have index_back : (UInt64.ofNat (counterIndex profile index)).toNat = counterIndex profile index :=
    UInt64.toNat_ofNat_of_lt' indexSmall
  have count_back : (UInt32.ofNat record.counters.length).toNat = record.counters.length :=
    UInt32.toNat_ofNat_of_lt' rowFits.counterCount
  have ended : valuesStart version profile ≤ image.sections.countersEnd := by
    obtain same | same := image.counters_end
    · exact Nat.le_of_eq same.symm
    · rw [same]
      exact Nat.le_add_right _ _
  rw [length_counters_bytes] at within
  have sliced := slice_of_placed image.file "counters" image.sections.counters
    image.sections.countersEnd _ _ placed (by
      have start : image.sections.counters = countersStart version profile := rfl
      rw [valuesStart] at ended
      omega)
  rw [length_counter_bytes] at sliced
  have layout : image.file.layout = version.indexedLayout := rfl
  simp only [File.counters, rowAt, index_back, count_back, layout]
  rw [if_neg (Nat.not_le.mpr offsetSmall), bind_ok_iff]
  refine ⟨counterBytes version.indexedLayout record, sliced, ?_⟩
  apply Read.read_of_yields
  have each : ∀ count ∈ record.counters, ∀ start rest,
      Read.Yields (Read.uint version.indexedLayout.counterWidth) .little start
        (ByteOrder.little.write version.indexedLayout.counterWidth.size count.toNat) rest count := by
    intro count member start rest
    have small := image.countersFit record (List.mem_of_getElem? found) count member
    exact Read.uint_word_yields version.indexedLayout.counterWidth count small
  exact Read.times_yields _ record.counters each

theorem blob_read (fits : data.length < UInt64.size) (hasValues : version.indexedLayout.hasValueProfiles)
    (values : ValueProfile) (written : Blob.encode values = .ok blob) :
    image.file.values (image.rowAt index record blob) = .ok (some values) := by
  obtain ⟨-, rowFits⟩ := image.row_placed index record blob found blobFound
  obtain ⟨storable, shape⟩ := Blob.encode_ok values blob written
  have start : image.file.sections.valueProfiles = some (valuesStart version profile) :=
    if_pos hasValues
  have length : (UInt32.ofNat blob.length).toNat = blob.length :=
    UInt32.toNat_ofNat_of_lt' (rowFits.valueLength hasValues)
  have header : 8 ≤ blob.length := by
    rw [shape, Blob.length_blob_bytes, Blob.size_eq]
    omega
  have stored : UInt32.ofNat blob.length ≠ 0 := by
    intro zero
    rw [zero] at length
    exact absurd length (by simp; omega)
  have place : image.valueOffset index blob = (image.blobs.take index).flatten.length := by
    rw [valueOffset, if_neg]
    rw [List.isEmpty_iff_length_eq_zero]
    omega
  have offset : (UInt64.ofNat (image.valueOffset index blob)).toNat =
      image.valueOffset index blob :=
    UInt64.toNat_ofNat_of_lt' (image.value_offset_small index blob blobFound fits)
  have inner := Placed.part image.blobs index blobFound
  have within := inner.within
  have ends : image.file.sections.names =
      valuesStart version profile + image.blobs.flatten.length := rfl
  have sliced := slice_of_placed image.file "value profile" (valuesStart version profile)
    image.file.sections.names _ blob ((image.blobs_placed.first _ _).inside inner) (by
      rw [ends]
      omega)
  have decoded : (Cursor.ofBytes (Blob.blobBytes .little values) .little).read
      (Blob.decode none) = .ok values :=
    Read.read_of_yields (Blob.decode_yields .little values storable none nofun)
  simp only [File.values, start, rowAt, if_pos hasValues]
  rw [if_neg stored, offset, length, place, bind_ok_iff]
  refine ⟨blob, sliced, ?_⟩
  rw [shape]
  apply Read.read_of_yields
  apply Read.bind_yields_last (Blob.frame_yields .little values storable)
  apply Read.bind_yields_nil Read.at_end_yields
  rw [decoded]
  exact Read.bind_yields_nil (Read.of_except_yields values) (Read.pure_yields _)

theorem values_read (fits : data.length < UInt64.size) :
    image.file.values (image.rowAt index record blob) =
      .ok (record.stored version.indexedLayout).values := by
  obtain ⟨other, same, encoded⟩ := map_m_ok_get image.blobsWritten index record found
  cases blobFound.symm.trans same
  obtain ⟨rfl, nothing⟩ | ⟨values, written, hasValues, kept⟩ := encode_blob_stored _ _ _ encoded
  · have unstored : (image.rowAt index record []).valueLength = 0 := ite_self 0
    rw [nothing, File.values]
    cases image.file.sections.valueProfiles with
    | none => rfl
    | some start =>
        dsimp only
        rw [if_pos unstored]
  · rw [kept]
    exact image.blob_read index record blob found blobFound fits hasValues values written

theorem record_read (fits : data.length < UInt64.size) :
    image.file.record index = .ok (record.stored version.indexedLayout) := by
  have row := image.row_read index record blob found blobFound fits
  have name := image.name_read index record blob found blobFound fits
  have counters := image.counters_read index record blob found blobFound fits
  have values := image.values_read index record blob found blobFound fits
  simp only [File.record, bind_ok_iff, map_error_ok_iff, pure_ok_iff]
  exact ⟨_, row, _, name, _, counters, _, values, rfl⟩

end Record

theorem all_read (image : Image version profile data) (fits : data.length < UInt64.size) :
    image.file.records =
      (profile.records.map (FunctionRecord.stored version.indexedLayout)).map .ok := by
  apply List.ext_getElem
  · simp only [File.records, List.length_map, List.length_range]
    rfl
  · intro index bound otherBound
    simp only [List.length_map] at otherBound
    have blobBound : index < image.blobs.length := image.blob_count ▸ otherBound
    simp only [File.records, List.getElem_map, List.getElem_range]
    exact image.record_read index _ _ (List.getElem?_eq_getElem otherBound)
      (List.getElem?_eq_getElem blobBound) fits

end Image

theorem indexed_round_trip (version : Version) (profile : Profile) (data : Bytes)
    (few : profile.records.length < UInt32.size) (written : write version profile = .ok data)
    (fits : data.length < UInt64.size) :
    parse .strict data = .ok {
      format := .indexed
      version := some version
      variant := profile.variant
      records := profile.records.map (FunctionRecord.stored version.indexedLayout)
      binaryIds := []
      skipped := [] } := by
  obtain ⟨image⟩ := image_of_write version profile data written
  have settled := Transcript.settle_ok .strict
    (profile.records.map (FunctionRecord.stored version.indexedLayout)) ()
  rw [parse, bind_ok_iff]
  refine ⟨image.file, image.open_file fits few, ?_⟩
  rw [File.toProfile, bind_ok_iff, File.transcript, image.all_read fits]
  exact ⟨_, settled, rfl⟩

def colliding : Profile where
  format := .indexed
  version := some .v13
  variant := ⟨true, false, true⟩
  records := [⟨"f", 7, [3, 0], some ⟨[[⟨5, 2⟩]], []⟩⟩, ⟨"g", 7, [1], none⟩]
  binaryIds := []
  skipped := []

theorem write_colliding : ∃ data : Bytes, write .v13 colliding = .ok data ∧ data.length = 286 := by
  have buckets : bucketCountFor colliding.records.length = 2 := by cbv
  apply (to_option_map_some_iff _ List.length _).mp
  unfold write
  simp only [buckets]
  decide +kernel

theorem indexed_round_trip_colliding : ∃ data : Bytes, write .v13 colliding = .ok data ∧
    colliding.records.length < UInt32.size ∧ data.length < UInt64.size ∧
      parse .strict data = .ok colliding := by
  obtain ⟨data, written, length⟩ := write_colliding
  have fits : data.length < UInt64.size := by
    rw [length]
    decide
  exact ⟨data, written, by decide, fits,
    indexed_round_trip .v13 colliding data (by decide) written fits⟩

end Indexed

end ExecCounts
