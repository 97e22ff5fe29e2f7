import ExecCounts.Proofs.Indexed.Lookup
import ExecCounts.Proofs.Shortened

set_option autoImplicit false

namespace ExecCounts

def betraysTruncation (kind : FailureKind) : Prop := kind = .truncatedInput ∨ kind = .corruptIndex

namespace Indexed

variable {α : Type} {missing : Bytes}

theorem check_order_corrupt (before : String × Nat) (places : List (String × Nat))
    (failure : Failure) (failed : checkOrder before places = .error failure) :
    failure.kind = .corruptIndex := by
  induction places generalizing before with
  | nil => cases failed
  | cons place rest ih =>
      rw [checkOrder] at failed
      split at failed
      · cases failed
        rfl
      · exact ih place failed

theorem check_sum_corrupt (header : Header) (rest : Bytes) (failure : Failure)
    (failed : checkSum header rest = .error failure) : failure.kind = .corruptIndex := by
  rw [checkSum] at failed
  split at failed
  · cases failed
  · dsimp only at failed
    split at failed
    · cases failed
    · cases failed
      rfl

theorem slice_corrupt (file : File) (what : String) (start stop offset length : Nat)
    (failure : Failure) (failed : file.slice what start stop offset length = .error failure) :
    failure.kind = .corruptIndex := by
  rw [File.slice] at failed
  split at failed
  · cases failed
  · cases failed
    rfl

theorem header_survives (width : Width) (fields : List IndexedField) :
    Read.Survives betraysTruncation missing (Header.read width fields) := by
  induction fields with
  | nil => exact Read.pure_degrades rfl
  | cons field fields ih =>
      refine Read.bind_survives (Read.uint_survives (.inl rfl) width) fun _ => ?_
      exact Read.bind_survives ih fun _ => Read.pure_degrades rfl

/-- The same file without its last bytes, all of which belong to the names. -/
structure File.Shortened (missing : Bytes) (whole short : File) : Prop where
  data : whole.data = short.data ++ missing
  same : short = { whole with data := short.data }
  values : whole.sections.countersEnd ≤ whole.sections.names
  names : whole.sections.names ≤ short.data.length

theorem read_file_degrades :
    Read.Degrades betraysTruncation missing readFile readFile (File.Shortened missing) := by
  have truncation : betraysTruncation .truncatedInput := .inl rfl
  unfold readFile
  -- magic
  refine Read.bind_degrades (Read.u64_survives truncation) fun word _ same => ?_
  subst same
  refine Read.check_degrades fun _ => ?_
  -- version and flags
  refine Read.bind_degrades (Read.u64_survives truncation) fun word _ same => ?_
  subst same
  refine Read.bind_degrades (Read.of_except_survives _) fun version _ same => ?_
  subst same
  -- header fields
  refine Read.bind_degrades (header_survives _ _) fun header _ same => ?_
  subst same
  refine Read.bind_degrades Read.position_survives fun headerSize _ same => ?_
  subst same
  refine Read.check_degrades fun _ => ?_
  refine Read.bind_degrades Read.get_degrades fun cursor short shortened => ?_
  refine Read.bind_degrades (Read.of_check_degrades fun failure failed =>
    .inr (check_sum_corrupt _ _ _ failed)) fun _ _ _ => ?_
  -- order of the sections
  refine Read.bind_degrades Read.get_degrades fun cursor short shortened => ?_
  refine Read.bind_degrades (Read.of_check_degrades fun failure failed =>
    .inr (check_order_corrupt _ _ _ failed)) fun _ _ ordered => ?_
  refine Read.check_degrades fun _ => ?_
  -- number of buckets
  refine Read.bind_degrades (Read.seek_survives truncation _) fun _ _ _ => ?_
  refine Read.bind_degrades (Read.u64_survives truncation) fun count _ same => ?_
  subst same
  refine Read.check_degrades fun _ => ?_
  obtain ⟨-, -, -, -, values, names⟩ := (check_landmarks_ok_iff _ _ _).mp ordered
  exact Read.pure_degrades ⟨shortened.data, rfl, values, names⟩

section Short

variable (whole short : File) (shortened : File.Shortened missing whole short)

include shortened

theorem read_at_degrades (offset : Nat) (read : Read α)
    (survives : Read.Survives betraysTruncation missing read) :
    Degrades betraysTruncation (whole.readAt offset read) (short.readAt offset read) Eq := by
  unfold File.readAt
  rw [shortened.data]
  exact Read.read_degrades
    (Read.bind_survives (Read.seek_survives (.inl rfl) offset) fun _ => survives)
    (Cursor.shortened_little short.data missing)

theorem chain_degrades (bucket : Nat) :
    Degrades betraysTruncation (whole.chain bucket) (short.chain bucket) Eq := by
  have truncation : betraysTruncation .truncatedInput := .inl rfl
  have reads : short.chain bucket = short.readAt (whole.bucketOffset bucket) (do
      let offset := (← Read.u64).toNat
      if offset = 0 then return []
      else whole.chainAt bucket offset) := by
    rw [shortened.same]
    rfl
  have entry : Read.Survives betraysTruncation missing (whole.chainEntry bucket) := by
    unfold File.chainEntry
    refine Read.bind_survives (Read.u64_survives truncation) fun hash => ?_
    refine Read.bind_survives (Read.uint_survives truncation _) fun offset => ?_
    refine Read.check_degrades fun _ => ?_
    cases whole.indexAt? offset.toNat with
    | none => exact Read.throw_degrades _ _
    | some index => exact Read.pure_degrades rfl
  rw [reads]
  apply read_at_degrades whole short shortened
  refine Read.bind_survives (Read.u64_survives truncation) fun offset => ?_
  dsimp only
  split
  · exact Read.pure_degrades rfl
  · unfold File.chainAt
    refine Read.check_degrades fun _ => ?_
    refine Read.bind_survives (Read.seek_survives truncation _) fun _ => ?_
    refine Read.bind_survives (Read.u32_survives truncation) fun count => ?_
    refine Read.check_degrades fun _ => ?_
    exact Read.times_survives entry _

theorem check_chains_degrades (buckets : List Nat) :
    Degrades betraysTruncation (whole.checkChains buckets) (short.checkChains buckets) Eq := by
  induction buckets with
  | nil => exact Degrades.of_value rfl
  | cons bucket rest ih =>
      exact Degrades.bind (chain_degrades whole short shortened bucket) fun _ _ _ => ih

theorem row_degrades (index : Nat) :
    Degrades betraysTruncation (whole.row index) (short.row index) Eq := by
  have truncation : betraysTruncation .truncatedInput := .inl rfl
  have reads : short.row index =
      short.readAt (whole.rowOffset index) (File.readRow whole.layout) := by
    rw [shortened.same]
    rfl
  rw [reads]
  apply read_at_degrades whole short shortened
  unfold File.readRow
  refine Read.bind_survives (Read.uint_survives truncation _) fun _ => ?_
  refine Read.bind_survives (Read.u32_survives truncation) fun _ => ?_
  refine Read.bind_survives (Read.u64_survives truncation) fun _ => ?_
  refine Read.bind_survives (Read.uint_survives truncation _) fun _ => ?_
  refine Read.bind_survives (Read.u32_survives truncation) fun _ => ?_
  split
  · refine Read.bind_survives (Read.uint_survives truncation _) fun _ => ?_
    exact Read.bind_survives (Read.u32_survives truncation) fun _ => Read.pure_degrades rfl
  · exact Read.pure_degrades rfl

theorem slice_kept (what : String) (start stop stopShort offset length : Nat) (bytes : Bytes)
    (sliced : whole.slice what start stop offset length = .ok bytes)
    (inside : stopShort ≤ short.data.length) (fits : offset + length ≤ stopShort - start) :
    short.slice what start stopShort offset length = .ok bytes := by
  rw [File.slice] at sliced
  split at sliced
  · cases sliced
    rw [File.slice, if_pos fits, Except.ok.injEq]
    by_cases none : length = 0
    · rw [none, List.take_zero, List.take_zero]
    · rw [shortened.data, List.drop_append_of_le_length (by omega), List.take_append_of_le_length]
      rw [List.length_drop]
      omega
  · cases sliced

theorem slice_degrades (what : String) (start stop stopShort offset length : Nat)
    (inside : stopShort ≤ short.data.length) :
    Degrades betraysTruncation (whole.slice what start stop offset length)
      (short.slice what start stopShort offset length) Eq := by
  refine Degrades.of_blame (fun failure failed => .inr (slice_corrupt _ _ _ _ _ _ failure failed)) ?_
  intro value other sliced slicedShort
  have fits : offset + length ≤ stopShort - start := by
    rw [File.slice] at slicedShort
    split at slicedShort
    · assumption
    · cases slicedShort
  have kept := slice_kept whole short shortened what start stop stopShort offset length value sliced
    inside fits
  exact Except.ok.inj (kept.symm.trans slicedShort)

theorem name_degrades (row : Row) :
    Degrades betraysTruncation (whole.name row) (short.name row) Eq := by
  have sections : short.sections = whole.sections := by rw [shortened.same]
  unfold File.name
  rw [sections]
  refine Degrades.bind (slice_degrades whole short shortened _ _ _ _ _ _ (Nat.le_refl _)) ?_
  intro bytes _ same
  subst same
  exact Degrades.of_ok fun value ran => ⟨value, ran, rfl⟩

theorem counters_degrades (row : Row) :
    Degrades betraysTruncation (whole.counters row) (short.counters row) Eq := by
  have sections : short.sections = whole.sections := by rw [shortened.same]
  have layout : short.layout = whole.layout := by rw [shortened.same]; rfl
  unfold File.counters
  rw [sections, layout]
  dsimp only
  split
  · intro value ran
    cases ran
  · refine Degrades.bind (slice_degrades whole short shortened _ _ _ _ _ _
      (Nat.le_trans shortened.values shortened.names)) ?_
    intro bytes _ same
    subst same
    exact Degrades.of_ok fun value ran => ⟨value, ran, rfl⟩

theorem values_degrades (row : Row) :
    Degrades betraysTruncation (whole.values row) (short.values row) Eq := by
  have sections : short.sections = whole.sections := by rw [shortened.same]
  unfold File.values
  rw [sections]
  cases whole.sections.valueProfiles with
  | none => exact Degrades.of_value rfl
  | some start =>
      dsimp only
      split
      · exact Degrades.of_value rfl
      · refine Degrades.bind (slice_degrades whole short shortened _ _ _ _ _ _ shortened.names) ?_
        intro bytes _ same
        subst same
        exact Degrades.of_ok fun value ran => ⟨value, ran, rfl⟩

theorem record_degrades (index : Nat) :
    Degrades betraysTruncation (whole.record index) (short.record index) Eq := by
  unfold File.record
  refine Degrades.bind (row_degrades whole short shortened index) fun row _ same => ?_
  subst same
  refine Degrades.bind (Degrades.map_error (fun _ => rfl)
    (name_degrades whole short shortened row)) fun name _ same => ?_
  subst same
  refine Degrades.bind (Degrades.map_error (fun _ => rfl)
    (counters_degrades whole short shortened row)) fun counters _ same => ?_
  subst same
  refine Degrades.bind (Degrades.map_error (fun _ => rfl)
    (values_degrades whole short shortened row)) fun values _ same => ?_
  subst same
  exact Degrades.of_value rfl

end Short

theorem open_file_degrades (cut missing : Bytes) :
    Degrades betraysTruncation (openFile (cut ++ missing)) (openFile cut)
      (File.Shortened missing) := by
  unfold openFile
  refine Degrades.bind (Read.read_degrades read_file_degrades
    (Cursor.shortened_little cut missing)) fun whole short shortened => ?_
  have buckets : short.bucketCount = whole.bucketCount := by rw [shortened.same]
  rw [buckets]
  refine Degrades.bind (check_chains_degrades whole short shortened _) fun _ _ _ => ?_
  exact Degrades.of_value shortened

theorem name_inside (whole short : File) (shortened : File.Shortened missing whole short) (index : Nat) (row : Row)
    (record : FunctionRecord) (rowRead : whole.row index = .ok row)
    (read : short.record index = .ok record) :
    row.nameOffset.toNat + row.nameLength.toNat ≤ short.data.length - short.sections.names := by
  simp only [File.record, bind_ok_iff, map_error_ok_iff] at read
  obtain ⟨found, foundRead, name, nameRead, -⟩ := read
  obtain ⟨failure, failed, -⟩ | ⟨other, otherRead, same⟩ :=
    row_degrades whole short shortened index row rowRead
  · rw [failed] at foundRead
    cases foundRead
  · subst same
    cases foundRead.symm.trans otherRead
    rw [File.name, bind_ok_iff] at nameRead
    obtain ⟨bytes, sliced, -⟩ := nameRead
    rw [File.slice] at sliced
    split at sliced
    · assumption
    · cases sliced

namespace Image

variable {version : Version} {profile : Profile} {data : Bytes}

theorem last_name_ends (image : Image version profile data)
    (named : image.sections.names < data.length) : ∃ (index : Nat) (record : FunctionRecord),
      profile.records[index]? = some record ∧
        image.sections.names + nameOffset profile record + (Utf8.bytes record.name).length =
          data.length := by
  have size := image.length_data
  have start : image.sections.names = valuesStart version profile + image.blobs.flatten.length := rfl
  rcases List.eq_nil_or_concat (storedNames profile) with none | ⟨others, last, all⟩
  · rw [none, List.flatMap_nil, List.length_nil] at size
    omega
  · rw [List.concat_eq_append] at all
    have listed : last ∈ storedNames profile := by
      rw [all]
      exact List.mem_append_right _ List.mem_cons_self
    obtain ⟨record, member, rfl⟩ := List.mem_map.mp ((NamePool.mem_distinct _ _).mp listed)
    obtain ⟨index, found⟩ := List.mem_iff_getElem?.mp member
    have distinct : (others ++ [record.name]).Nodup :=
      all ▸ NamePool.nodup_distinct (profile.records.map FunctionRecord.name)
    have new : record.name ∉ others := fun again =>
      (List.nodup_append.mp distinct).2.2 _ again _ List.mem_cons_self rfl
    have offset := NamePool.offset_last 0 others record.name new
    rw [all, List.flatMap_append, List.length_append, List.length_flatMap, List.flatMap_singleton]
      at size
    refine ⟨index, record, found, ?_⟩
    simp only [Nat.add_zero] at offset
    rw [nameOffset, all, offset]
    omega

section Short

variable (image : Image version profile data) (fits : data.length < UInt64.size) (short : File)
  (shortened : File.Shortened missing image.file short)

include image fits shortened

theorem short_record (index : Nat) (known : index < profile.records.length) (failure : Failure)
    (failed : short.record index = .error failure) : betraysTruncation failure.kind := by
  have blobBound : index < image.blobs.length := image.blob_count ▸ known
  have read := image.record_read index _ _ (List.getElem?_eq_getElem known)
    (List.getElem?_eq_getElem blobBound) fits
  obtain ⟨other, same, blamed⟩ | ⟨value, ran, -⟩ :=
    record_degrades image.file short shortened index _ read
  · cases failed.symm.trans same
    exact blamed
  · cases failed.symm.trans ran

theorem last_record_lost (lost : missing ≠ []) : ∃ index < profile.records.length,
    ∃ failure, short.record index = .error failure := by
  have size := congrArg List.length shortened.data
  have some := List.length_pos_iff.mpr lost
  have named : image.sections.names ≤ short.data.length := shortened.names
  have whole : image.file.data = data := rfl
  have sections : short.sections = image.sections := by rw [shortened.same]; rfl
  rw [whole, List.length_append] at size
  obtain ⟨index, record, found, ends⟩ := image.last_name_ends (by omega)
  obtain ⟨known, -⟩ := List.getElem?_eq_some_iff.mp found
  have blobFound := List.getElem?_eq_getElem (image.blob_count ▸ known : index < image.blobs.length)
  refine ⟨index, known, ?_⟩
  cases read : short.record index with
  | error failure => exact ⟨failure, rfl⟩
  | ok other =>
      -- A record that can be read has its name within the file, and here the name ends behind it.
      have inside := name_inside image.file short shortened index _ other
        (image.row_read index record _ found blobFound fits) read
      have offset : (UInt64.ofNat (nameOffset profile record)).toNat = nameOffset profile record :=
        UInt64.toNat_ofNat_of_lt' (image.name_offset_small index record found fits)
      have length : (UInt32.ofNat (Utf8.bytes record.name).length).toNat =
          (Utf8.bytes record.name).length :=
        UInt32.toNat_ofNat_of_lt' (image.row_placed index record _ found blobFound).2.nameLength
      simp only [rowAt, offset, length, sections] at inside
      omega

end Short

end Image

section Written

variable (version : Version) (profile : Profile) (data : Bytes)
  (few : profile.records.length < UInt32.size) (written : write version profile = .ok data)
  (fits : data.length < UInt64.size) (cut : Bytes) (beginning : cut <+: data)
  (shorter : cut.length < data.length)

include few written fits beginning shorter

theorem truncated_never_read : ∃ failure, parse .strict cut = .error failure ∧
    (failure.kind = .truncatedInput ∨ failure.kind = .corruptIndex) := by
  obtain ⟨image⟩ := image_of_write version profile data written
  obtain ⟨missing, rfl⟩ := beginning
  obtain ⟨failure, failed, blamed⟩ | ⟨short, opened, shortened⟩ :=
    open_file_degrades cut missing image.file (image.open_file fits few)
  · exact ⟨failure, by rw [parse, failed]; rfl, blamed⟩
  · have lost : missing ≠ [] := by
      rintro rfl
      rw [List.append_nil] at shorter
      exact Nat.lt_irrefl _ shorter
    have count : short.recordCount = profile.records.length := by rw [shortened.same]; rfl
    have entries : short.transcript.entries =
        (List.range profile.records.length).map short.record := by rw [← count]; rfl
    have each : ∀ failure, .error failure ∈ short.transcript.entries →
        betraysTruncation failure.kind := by
      intro failure member
      rw [entries] at member
      obtain ⟨index, known, failed⟩ := List.mem_map.mp member
      exact image.short_record fits short shortened index (List.mem_range.mp known) failure failed
    -- The record whose name ends the file cannot be read, and the first that cannot is blamed.
    obtain ⟨index, known, failure, failed⟩ := image.last_record_lost fits short shortened lost
    have some : .error failure ∈ short.transcript.entries := by
      rw [entries]
      exact List.mem_map.mpr ⟨index, List.mem_range.mpr known, failed⟩
    obtain ⟨first, stopped, blamed⟩ :=
      Transcript.settle_strict_error short.transcript each ⟨failure, some⟩
    refine ⟨first, ?_, blamed⟩
    rw [parse, opened]
    change short.toProfile .strict = _
    rw [File.toProfile, stopped]
    rfl

end Written

theorem truncated_never_read_colliding : ∃ data cut : Bytes, write .v13 colliding = .ok data ∧
    colliding.records.length < UInt32.size ∧ data.length < UInt64.size ∧ cut <+: data ∧
      cut.length < data.length ∧ ∃ failure, parse .strict cut = .error failure ∧
        (failure.kind = .truncatedInput ∨ failure.kind = .corruptIndex) := by
  obtain ⟨data, written, length⟩ := write_colliding
  have few : colliding.records.length < UInt32.size := by decide
  have fits : data.length < UInt64.size := by
    rw [length]
    decide
  have beginning : data.take 285 <+: data := List.take_prefix 285 data
  have shorter : (data.take 285).length < data.length := by
    rw [List.length_take, length]
    decide
  exact ⟨data, data.take 285, written, few, fits, beginning, shorter,
    truncated_never_read .v13 colliding data few written fits _ beginning shorter⟩

end Indexed

end ExecCounts
