import ExecCounts.Proofs.Raw.Truncation
import Mathlib.Algebra.Order.BigOperators.Group.List
import Mathlib.Algebra.Order.Ring.Nat

set_option autoImplicit false

namespace ExecCounts.Raw

inductive Defect (record : FunctionRecord) : Prop where
  | unnamed (empty : record.name = "")
  | separated (within : nameSeparator ∈ Utf8.bytes record.name)
  | sites (kind : ValueKind) (many : 65535 < record.siteCount kind)
  | values (crowded : record.Crowded)

def laidOutSize (version : Version) (profile : Profile) : Nat :=
  version.rawLayout.headerSize + profile.records.length * writtenMachine.recordSize +
    8 * (profile.records.flatMap FunctionRecord.counters).length +
      (joinNames (storedNames profile)).length + (profile.records.map FunctionRecord.blobSize).sum

theorem length_written_blobs (deflate : Bytes → Bytes) (version : Version) (compress : Bool)
    (profile : Profile) : (writtenDump deflate version compress profile).blobs.length =
      (profile.records.map FunctionRecord.blobSize).sum := by
  have each (entry : DumpEntry) :
      ((writtenDump deflate version compress profile).blobBytes entry).length =
        entry.record.blobSize := by
    rw [Dump.blobBytes, FunctionRecord.blobSize]
    cases entry.record.pruned.values with
    | none => rfl
    | some values => exact Blob.length_blob_bytes _ values
  have records := written_records (storedNames profile) 0 profile.records
  rw [Dump.blobs, List.length_flatMap, ← records, List.map_map]
  exact congrArg List.sum (List.map_congr_left fun entry _ => each entry)

theorem laid_out_size_le (version : Version) (profile : Profile) (data : Bytes)
    (written : write version false profile = .ok data) :
    laidOutSize version profile ≤ data.length := by
  obtain ⟨shape, -, -⟩ := dump_of_write Zlib.deflate version false profile data written
  have names := length_join_names_le Zlib.deflate (storedNames profile)
  have blobs := length_written_blobs Zlib.deflate version false profile
  rw [shape, Dump.length_bytes, length_written_body, blobs, namesEnd, laidOutSize]
  omega

theorem encode_values_writes (record : FunctionRecord) :
    Writes ((∀ kind, record.siteCount kind < UInt16.size) ∧
      ∀ values ∈ record.pruned.values, Blob.Storable values) (encodeValues record.values) := by
  cases stored : record.values with
  | none =>
      refine (Writes.pure _).congr (iff_of_true trivial ⟨fun kind => ?_, ?_⟩)
      · rw [FunctionRecord.siteCount, stored]
        exact Nat.zero_lt_succ _
      · rw [FunctionRecord.pruned_values, stored]
        exact fun values kept => absurd kept (Option.not_mem_none values)
  | some values =>
      have counts : Writes (∀ kind ∈ ValueKind.all, record.siteCount kind < UInt16.size)
          (ValueKind.all.mapM (encodeSiteCount values)) := by
        refine .map_m fun kind _ => ?_
        rw [FunctionRecord.siteCount, stored]
        exact .check _ _
      have every : (∀ kind ∈ ValueKind.all, record.siteCount kind < UInt16.size) ↔
          ∀ kind, record.siteCount kind < UInt16.size :=
        ⟨fun each kind => each kind (by cases kind <;> decide), fun each kind _ => each kind⟩
      have kept : record.pruned.values = if !values.isEmpty then some values else none := by
        rw [FunctionRecord.pruned_values, stored, Option.filter_some]
      rw [encodeValues, kept]
      cases values.isEmpty with
      | true =>
          refine (counts.returning _).congr ?_
          rw [every]
          exact (and_iff_left fun values kept => absurd kept (Option.not_mem_none values)).symm
      | false =>
          refine (counts.bind fun _ _ => (Blob.encode_writes values).returning _).congr ?_
          rw [every]
          simp

variable (layout : RawLayout) (names : List String)

theorem encode_record_writes (delta index before : Nat) (record : FunctionRecord) :
    Writes (RecordFits record) (encodeRecord layout names delta index before record) := by
  rw [encodeRecord]
  refine ((encode_values_writes record).bind fun _ _ => Writes.guarded _ (Writes.pure _)).congr ?_
  rw [and_true, Nat.not_le]
  exact ⟨fun fits => ⟨fits.1.1, fits.2, fits.1.2⟩,
    fun fits => ⟨⟨fits.sites, fits.values⟩, fits.counters⟩⟩

theorem encode_records_rejects (delta index before : Nat) (records : List FunctionRecord) :
    Rejects (fun record => record ∈ records ∧ ¬ RecordFits record)
      (encodeRecords layout names delta index before records) := by
  induction records generalizing index before with
  | nil => exact .pure _ fun record unfit => List.not_mem_nil unfit.1
  | cons record rest ih =>
      have own := (encode_record_writes layout names delta index before record).rejects record
      refine (own.bind fun _ _ => (ih _ _).returning _).congr fun other => ?_
      rw [List.mem_cons, or_and_right]
      exact or_congr_left (and_congr_right fun same => by rw [same])

theorem write_rejects_unfit (deflate : Bytes → Bytes) (version : Version) (compress : Bool)
    (profile : Profile) :
    Rejects (fun record => record ∈ profile.records ∧
        ¬ (isWritableName record.name = true ∧ RecordFits record))
      (writeWith deflate version compress profile) := by
  rw [writeWith]
  cases unwritable : profile.records.find? fun record => !isWritableName record.name with
  | some record =>
      have listed := List.mem_of_find?_eq_some unwritable
      have named := List.find?_some unwritable
      have unfit : ¬ (isWritableName record.name = true ∧ RecordFits record) := by
        intro both
        rw [both.1] at named
        cases named
      exact .blamed ⟨listed, unfit⟩ rfl rfl
  | none =>
      refine ((encode_records_rejects _ _ _ 0 0 profile.records).returning _).congr fun record => ?_
      refine and_congr_right fun listed => not_congr ?_
      have writable := List.find?_eq_none.mp unwritable record listed
      rw [Bool.not_eq_true, Bool.not_eq_false'] at writable
      exact (and_iff_right writable).symm

theorem writable_name_iff (name : String) :
    isWritableName name = true ↔ name ≠ "" ∧ nameSeparator ∉ Utf8.bytes name := by
  rw [is_writable_name_iff, ne_eq, Utf8.bytes_eq_nil_iff]

section Small

variable {version : Version} {profile : Profile} (small : laidOutSize version profile < UInt32.size)
  {record : FunctionRecord} (listed : record ∈ profile.records)

include small listed

theorem counters_small : record.counters.length < UInt32.size := by
  have part := length_part_le profile.records FunctionRecord.counters record listed
  rw [laidOutSize] at small
  omega

theorem blob_small : record.blobSize < UInt32.size := by
  have part := List.le_sum_of_mem (List.mem_map_of_mem (f := FunctionRecord.blobSize) listed)
  rw [laidOutSize] at small
  omega

theorem defect_iff : ¬ (isWritableName record.name = true ∧ RecordFits record) ↔ Defect record := by
  have counters := counters_small small listed
  have storable := record.storable_iff (blob_small small listed)
  constructor
  · intro unfit
    by_contra sound
    refine unfit ⟨(writable_name_iff _).mpr ⟨fun empty => sound (.unnamed empty),
      fun within => sound (.separated within)⟩, fun kind => ?_, counters,
      storable.mpr fun crowded => sound (.values crowded)⟩
    by_contra many
    exact sound (.sites kind (Nat.lt_of_succ_le (Nat.le_of_not_lt many)))
  · rintro defect ⟨writable, fits⟩
    obtain ⟨named, plain⟩ := (writable_name_iff _).mp writable
    cases defect with
    | unnamed empty => exact named empty
    | separated within => exact plain within
    | sites kind many => exact Nat.not_le_of_lt (fits.sites kind) many
    | values crowded => exact storable.mp fits.values crowded

end Small

theorem write_rejects (version : Version) (profile : Profile)
    (small : laidOutSize version profile < UInt32.size) :
    Rejects (fun record => record ∈ profile.records ∧ Defect record) (write version false profile) :=
  (write_rejects_unfit Zlib.deflate version false profile).congr fun _ =>
    and_congr_right fun listed => defect_iff small listed

end ExecCounts.Raw
