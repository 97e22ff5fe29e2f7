import ExecCounts.Proofs.Indexed.Guarded

set_option autoImplicit false

namespace ExecCounts.Indexed

open ExecCounts.Guarded (Same)

namespace File

variable {file : File}

theorem index_known {offset index : Nat} (found : file.indexAt? offset = some index) :
    index < file.recordCount := by
  rw [indexAt?] at found
  obtain ⟨all, same⟩ := Option.ite_none_right_eq_some.mp found
  exact Option.some.inj same ▸ all.2.2

def Belongs (file : File) (bucket : Nat) (entry : ChainEntry) : Prop :=
  file.bucketOf entry.hash = bucket ∧ entry.index < file.recordCount

theorem chain_entry_belongs (bucket : Nat) :
    Read.Ensures (file.chainEntry bucket) (file.Belongs bucket) := by
  intro cursor entry after ran
  obtain ⟨hash, afterHash, -, ran⟩ := (Read.bind_ran_iff _ _ _).mp ran
  obtain ⟨offset, afterOffset, -, ran⟩ := (Read.bind_ran_iff _ _ _).mp ran
  obtain ⟨home, ran⟩ := Read.check_ran ran
  cases found : file.indexAt? offset.toNat with
  | none =>
      rw [found] at ran
      cases ran
  | some index =>
      rw [found] at ran
      obtain ⟨rfl, -⟩ := (Read.pure_ran_iff _ _).mp ran
      exact ⟨not_not.mp home, index_known found⟩

theorem chain_belongs {bucket : Nat} {entries : List ChainEntry}
    (chain : file.chain bucket = .ok entries) : ∀ entry ∈ entries, file.Belongs bucket entry := by
  obtain ⟨after, ran⟩ := (Read.read_ok_iff _ _).mp chain
  obtain ⟨⟨⟩, atBucket, -, ran⟩ := (Read.bind_ran_iff _ _ _).mp ran
  obtain ⟨offset, afterOffset, -, ran⟩ := (Read.bind_ran_iff _ _ _).mp ran
  by_cases none : offset.toNat = 0
  · rw [if_pos none] at ran
    obtain ⟨rfl, -⟩ := (Read.pure_ran_iff _ _).mp ran
    exact nofun
  · rw [if_neg none, chainAt] at ran
    obtain ⟨-, ran⟩ := Read.check_ran ran
    obtain ⟨⟨⟩, atChain, -, ran⟩ := (Read.bind_ran_iff _ _ _).mp ran
    obtain ⟨count, afterCount, -, ran⟩ := (Read.bind_ran_iff _ _ _).mp ran
    obtain ⟨-, ran⟩ := Read.check_ran ran
    exact Read.times_ensures (chain_entry_belongs bucket) afterCount entries after ran

/-- What opening a file makes sure of. Below, a record fails if the file is wrong about that
record. -/
structure InBounds (file : File) : Prop where
  header : file.layout.headerSize ≤ file.sections.hashTable
  hashTable : file.sections.hashTable ≤ file.sections.records
  records : file.sections.records ≤ file.sections.counters
  valueProfiles : ∀ start ∈ file.sections.valueProfiles,
    file.sections.counters ≤ start ∧ start ≤ file.sections.names
  names : file.sections.counters ≤ file.sections.names
  within : file.sections.names ≤ file.data.length
  chains : ∀ bucket < file.bucketCount, ∃ entries, Guarded.chain file bucket = .ok entries ∧
    ∀ entry ∈ entries, file.Belongs bucket entry
  rows : ∀ index < file.recordCount, ∃ row, Guarded.row file index = .ok row
  record : ∀ index < file.recordCount, Same (Guarded.record file index) (file.record index)
  lookup : ∀ hash, Same (Guarded.lookup file hash) (file.lookup hash)
  get : ∀ id, Same (Guarded.get? file id) (file.get? id)
  all : Guarded.records file = file.records.map (·.mapError .failure)
  lookupFailure : ∀ hash failure, file.lookup hash = .error failure →
    ∃ index < file.recordCount, file.record index = .error failure
  getFailure : ∀ id failure, file.get? id = .error failure →
    ∃ index < file.recordCount, file.record index = .error failure

section Addressable

variable (addressable : file.Addressable)

include addressable

theorem bucket_of_lt (hash : UInt64) : file.bucketOf hash < file.bucketCount :=
  Nat.mod_lt _ (power_pos addressable.power)

theorem row_readable (index : Nat) (known : index < file.recordCount) :
    ∃ row, file.row index = .ok row := by
  obtain ⟨piece, row, -, placed, yields⟩ := row_placed addressable.ordered known
  exact ⟨row, Read.read_of_run (Read.seek_placed placed (yields _) (Cursor.little _) rfl rfl)⟩

theorem lookup_same (hash : UInt64) : Same (Guarded.lookup file hash) (file.lookup hash) := by
  have home := bucket_of_lt addressable hash
  refine Guarded.same_after (Guarded.bucket_of_ok addressable hash) ?_
  refine Guarded.same_bind (Guarded.chain_same addressable _ home) fun entries chain => ?_
  refine Guarded.same_map_m _ fun entry kept => ?_
  exact Guarded.record_same addressable entry.index
    (chain_belongs chain entry (List.mem_filter.mp kept).1).2

theorem records_same : Guarded.records file = file.records.map (·.mapError .failure) := by
  rw [Guarded.records, records, List.map_map]
  exact List.map_congr_left fun index member =>
    Guarded.record_same addressable index (List.mem_range.mp member)

theorem lookup_error (chains : ∀ bucket < file.bucketCount, ∃ entries, file.chain bucket = .ok entries)
    (hash : UInt64) (failure : Failure) (failed : file.lookup hash = .error failure) :
    ∃ index < file.recordCount, file.record index = .error failure := by
  obtain ⟨entries, chain⟩ := chains _ (bucket_of_lt addressable hash)
  rw [lookup, chain] at failed
  obtain ⟨entry, kept, wrong⟩ := map_m_error failed
  exact ⟨entry.index, (chain_belongs chain entry (List.mem_filter.mp kept).1).2, wrong⟩

end Addressable

end File

theorem opened_in_bounds (data : Bytes) (fits : data.length < UInt64.size) (file : File)
    (opened : openFile data = .ok file) : file.InBounds := by
  have found := (open_file_ok_iff _ _).mp opened
  obtain ⟨⟨run, rfl⟩, chains⟩ := found
  have addressable := addressable_of_ran fits run.ran
  obtain ⟨header, table, records, counters, names, within⟩ :=
    (check_landmarks_ok_iff _ _ _).mp run.ordered
  exact {
    header := header_end run rfl ▸ header
    hashTable := table
    records := records
    valueProfiles := by
      intro start stored
      have present : run.header.sections.valueProfiles = some start := stored
      have same : run.header.sections.countersEnd = start := by
        rw [Sections.countersEnd, present, Option.getD_some]
      exact ⟨same ▸ counters, same ▸ names⟩
    names := Nat.le_trans counters names
    within := within
    chains := by
      intro bucket inRange
      obtain ⟨entries, chain⟩ := chains bucket inRange
      refine ⟨entries, ?_, File.chain_belongs chain⟩
      rw [Guarded.chain_same addressable bucket inRange, chain]
      rfl
    rows := by
      intro index known
      obtain ⟨row, read⟩ := File.row_readable addressable index known
      refine ⟨row, ?_⟩
      rw [Guarded.row_same addressable index known, read]
      rfl
    record := Guarded.record_same addressable
    lookup := File.lookup_same addressable
    get := fun id => Guarded.same_bind (File.lookup_same addressable id.hash) fun _ _ => rfl
    all := File.records_same addressable
    lookupFailure := File.lookup_error addressable chains
    getFailure := by
      intro id failure failed
      obtain looked | ⟨records, -, impossible⟩ := (bind_error_iff _ _ _).mp failed
      · exact File.lookup_error addressable chains id.hash failure looked
      · cases impossible }

/-- The reader ends without a fault on every file, and leaves no bound unchecked in those it
accepts. The length of anything in memory is a word. -/
theorem opening_in_bounds (data : Bytes) (fits : data.length < UInt64.size) :
    Guarded.openFile data = (openFile data).mapError .failure ∧
      ∀ file, openFile data = .ok file → file.InBounds :=
  ⟨Guarded.open_file_same data fits, opened_in_bounds data fits⟩

theorem opening_in_bounds_misfiled : misfiled.length < UInt64.size ∧
    ∃ file, Guarded.openFile misfiled = .ok file ∧ openFile misfiled = .ok file ∧ file.InBounds := by
  have fits : misfiled.length < UInt64.size := by decide +kernel
  obtain ⟨file, opened, -⟩ := open_misfiled
  obtain ⟨same, each⟩ := opening_in_bounds misfiled fits
  refine ⟨fits, file, ?_, opened, each file opened⟩
  rw [same, opened]
  rfl

end ExecCounts.Indexed
