import ExecCounts.Proofs.Indexed.RoundTrip

set_option autoImplicit false

namespace ExecCounts.Indexed

def entriesOf (records : List FunctionRecord) : List ChainEntry :=
  records.zipIdx.map fun (record, index) => ⟨record.hash, index⟩

theorem bucket_count_pos (recordCount : Nat) : 0 < bucketCountFor recordCount :=
  power_pos (bucket_count_power recordCount)

theorem chain_of_hash (bucketCount : Nat) (records : List FunctionRecord) (hash : UInt64) :
    (chainFor bucketCount records (hash.toNat % bucketCount)).filter (·.hash == hash) =
      (entriesOf records).filter (·.hash == hash) := by
  rw [chainFor, List.filter_filter]
  apply List.filter_congr
  intro entry _
  by_cases same : entry.hash = hash
  · rw [same, beq_self_eq_true, beq_self_eq_true, Bool.and_self]
  · rw [beq_false_of_ne same, Bool.false_and]

namespace Image

variable {version : Version} {profile : Profile} {data : Bytes}

theorem entries_read (image : Image version profile data) (fits : data.length < UInt64.size) :
    List.Forall₂ (fun entry record => entry.hash = record.hash ∧
        image.file.record entry.index = .ok record)
      (entriesOf profile.records)
      (profile.records.map (FunctionRecord.stored version.indexedLayout)) := by
  rw [List.forall₂_iff_get]
  refine ⟨by rw [entriesOf, List.length_map, List.length_zipIdx, List.length_map], ?_⟩
  intro index entryBound recordBound
  rw [List.length_map] at recordBound
  have blobBound : index < image.blobs.length := image.blob_count ▸ recordBound
  have read := image.record_read index _ _ (List.getElem?_eq_getElem recordBound)
    (List.getElem?_eq_getElem blobBound) fits
  simp only [entriesOf, List.get_eq_getElem, List.getElem_map, List.getElem_zipIdx, Nat.zero_add]
  exact ⟨rfl, read⟩

theorem lookup_written (image : Image version profile data) (fits : data.length < UInt64.size)
    (few : profile.records.length < UInt32.size) (hash : UInt64) :
    image.file.lookup hash = .ok ((profile.records.map
      (FunctionRecord.stored version.indexedLayout)).filter (·.hash == hash)) := by
  have home : image.file.bucketOf hash < bucketTotal profile :=
    Nat.mod_lt _ (bucket_count_pos profile.records.length)
  rw [File.lookup, bind_ok_iff]
  refine ⟨_, image.chain_written fits few _ home, ?_⟩
  rw [show image.file.bucketOf hash = hash.toNat % bucketTotal profile from rfl, chain_of_hash,
    map_m_ok_iff]
  have alike : ∀ (entry : ChainEntry) (record : FunctionRecord), entry.hash = record.hash ∧
      image.file.record entry.index = .ok record →
        ((entry.hash == hash) = true ↔ (record.hash == hash) = true) :=
    fun entry record read => by rw [read.1]
  exact (List.rel_filter (fun {entry record} => alike entry record)
    (image.entries_read fits)).imp fun _ _ read => read.2

end Image

section Written

variable (version : Version) (profile : Profile) (data : Bytes)
  (few : profile.records.length < UInt32.size) (written : write version profile = .ok data)
  (fits : data.length < UInt64.size)

include few written fits

theorem lookup_linear_search : ∃ (file : File) (whole : Profile), openFile data = .ok file ∧
    file.recordCount = profile.records.length ∧ whole.records.length = profile.records.length ∧
      (∀ policy, file.toProfile policy = .ok whole) ∧
      (∀ hash, file.lookup hash = .ok (whole.records.filter (·.hash == hash))) ∧
        ∀ id, file.get? id = .ok (whole.get? id) := by
  obtain ⟨image⟩ := image_of_write version profile data written
  have settled := fun policy => Transcript.settle_ok policy
    (profile.records.map (FunctionRecord.stored version.indexedLayout)) ()
  refine ⟨image.file, {
    format := .indexed
    version := some version
    variant := profile.variant
    records := profile.records.map (FunctionRecord.stored version.indexedLayout)
    binaryIds := []
    skipped := [] }, image.open_file fits few, rfl, List.length_map _, ?_, ?_, ?_⟩
  · intro policy
    rw [File.toProfile, bind_ok_iff, File.transcript, image.all_read fits]
    exact ⟨_, settled policy, rfl⟩
  · exact image.lookup_written fits few
  · intro id
    rw [File.get?, bind_ok_iff]
    refine ⟨_, image.lookup_written fits few id.hash, ?_⟩
    rw [pure_ok_iff, Profile.get?, List.find?_filter]
    congr 1
    funext record
    obtain ⟨name, hash⟩ := id
    rw [Bool.eq_iff_iff, decide_eq_true_iff, beq_iff_eq, beq_iff_eq, beq_iff_eq,
      FunctionRecord.id, FunctionId.mk.injEq]
    exact and_comm

end Written

theorem lookup_linear_search_colliding : ∃ (data : Bytes) (file : File) (whole : Profile),
    write .v13 colliding = .ok data ∧ colliding.records.length < UInt32.size ∧
      data.length < UInt64.size ∧ openFile data = .ok file ∧ file.recordCount = 2 ∧
      file.toProfile .strict = .ok whole ∧ whole.records.length = 2 ∧
      file.lookup 7 = .ok (whole.records.filter (·.hash == 7)) ∧
      file.lookup 9 = .ok (whole.records.filter (·.hash == 9)) ∧
      file.get? ⟨"g", 7⟩ = .ok (whole.get? ⟨"g", 7⟩) ∧
        file.get? ⟨"f", 9⟩ = .ok (whole.get? ⟨"f", 9⟩) := by
  obtain ⟨data, written, length⟩ := write_colliding
  have few : colliding.records.length < UInt32.size := by decide
  have fits : data.length < UInt64.size := by
    rw [length]
    decide
  obtain ⟨file, whole, opened, count, records, profile, lookup, get⟩ :=
    lookup_linear_search .v13 colliding data few written fits
  exact ⟨data, file, whole, written, few, fits, opened, count, profile .strict, records, lookup 7,
    lookup 9, get ⟨"g", 7⟩, get ⟨"f", 9⟩⟩

end ExecCounts.Indexed
