import ExecCounts.Proofs.Indexed.Damaged

set_option autoImplicit false

namespace ExecCounts.Indexed

namespace File

section Stored

variable (file : File)

def storedHash (index : Nat) : UInt64 :=
  UInt64.ofNat (ByteOrder.little.numberAt file.data
    (file.rowOffset index + file.layout.offsetWidth.size + 4) 8)

theorem row_hash (index : Nat) (row : Row) (found : file.row index = .ok row) :
    row.hash = file.storedHash index := by
  obtain ⟨after, ran⟩ := (Read.read_ok_iff _ _).mp found
  obtain ⟨⟨⟩, start, seekRan, ran⟩ := (Read.bind_ran_iff _ _ _).mp ran
  obtain ⟨nameOffset, afterOffset, offsetRan, ran⟩ := (Read.bind_ran_iff _ _ _).mp ran
  obtain ⟨nameLength, afterLength, lengthRan, ran⟩ := (Read.bind_ran_iff _ _ _).mp ran
  obtain ⟨hash, afterHash, hashRan, ran⟩ := (Read.bind_ran_iff _ _ _).mp ran
  obtain ⟨counterIndex, afterIndex, -, ran⟩ := (Read.bind_ran_iff _ _ _).mp ran
  obtain ⟨counterCount, afterCount, -, ran⟩ := (Read.bind_ran_iff _ _ _).mp ran
  obtain ⟨data, order, placed⟩ := Read.seek_ran seekRan
  have moved := (Read.uint_ran offsetRan).2.trans (Read.u32_ran lengthRan).2
  have number := (Read.u64_ran hashRan).1
  rw [moved.number_at, order, data, placed, ← Nat.add_assoc] at number
  have same : row.hash = hash := by
    split at ran
    · obtain ⟨valueOffset, afterValues, -, ran⟩ := (Read.bind_ran_iff _ _ _).mp ran
      obtain ⟨valueLength, last, -, ran⟩ := (Read.bind_ran_iff _ _ _).mp ran
      obtain ⟨rfl, -⟩ := (Read.pure_ran_iff _ _).mp ran
      rfl
    · obtain ⟨rfl, -⟩ := (Read.pure_ran_iff _ _).mp ran
      rfl
  rw [same, storedHash, ← @UInt64.ofNat_toNat hash, number]
  rfl

theorem record_hash (index : Nat) (record : FunctionRecord) (found : file.record index = .ok record) :
    record.hash = file.storedHash index := by
  obtain ⟨row, rowFound, found⟩ := (bind_ok_iff _ _ _).mp found
  obtain ⟨name, -, found⟩ := (bind_ok_iff _ _ _).mp found
  obtain ⟨counters, -, found⟩ := (bind_ok_iff _ _ _).mp found
  obtain ⟨values, -, found⟩ := (bind_ok_iff _ _ _).mp found
  rw [← (pure_ok_iff _ _).mp found]
  exact file.row_hash index row rowFound

end Stored

theorem lookup_ok_iff {file : File} {hash : UInt64} {entries : List ChainEntry}
    (chain : file.chain (file.bucketOf hash) = .ok entries) (records : List FunctionRecord) :
    file.lookup hash = .ok records ↔ List.Forall₂ (fun entry record =>
      file.record entry.index = .ok record) (entries.filter (·.hash == hash)) records := by
  rw [lookup, chain]
  exact map_m_ok_iff _ _ _

end File

section Opened

variable (data : Bytes) (file : File) (opened : openFile data = .ok file) (hash : UInt64)

include opened

theorem home_chain : ∃ entries, file.chain (file.bucketOf hash) = .ok entries := by
  obtain ⟨⟨run, rfl⟩, chains⟩ := (open_file_ok_iff _ _).mp opened
  exact chains _ (Nat.mod_lt _ (power_pos run.power))

/-- The hash of a function stands in the file twice, in the hash table and in the row of its record.
Records are chosen by the first and come with the second, and nothing compares the two. -/
theorem lookup_follows_table : ∃ entries, file.chain (file.bucketOf hash) = .ok entries ∧
    (∀ records, file.lookup hash = .ok records ↔ List.Forall₂ (fun entry record =>
      file.record entry.index = .ok record) (entries.filter (·.hash == hash)) records) ∧
    (∀ records, file.lookup hash = .ok records →
      ((∀ record ∈ records, record.hash = hash) ↔
        ∀ entry ∈ entries, entry.hash = hash → file.storedHash entry.index = hash)) ∧
    ∀ name record, file.get? ⟨name, hash⟩ = .ok (some record) →
      record.name = name ∧ ∃ entry ∈ entries, entry.hash = hash ∧
        file.record entry.index = .ok record ∧ record.hash = file.storedHash entry.index := by
  obtain ⟨entries, chain⟩ := home_chain data file opened hash
  have found := File.lookup_ok_iff chain
  refine ⟨entries, chain, found, fun records looked => ?_, fun name record got => ?_⟩
  · have each := (found records).mp looked
    constructor
    · intro all entry listed own
      have kept : entry ∈ entries.filter (·.hash == hash) :=
        List.mem_filter.mpr ⟨listed, beq_iff_eq.mpr own⟩
      obtain ⟨record, member, read⟩ := forall₂_exists each entry kept
      rw [← file.record_hash _ _ read]
      exact all record member
    · intro agree record member
      obtain ⟨entry, kept, read⟩ := forall₂_exists each.flip record member
      obtain ⟨listed, own⟩ := List.mem_filter.mp kept
      rw [file.record_hash _ _ read]
      exact agree entry listed (beq_iff_eq.mp own)
  · obtain ⟨records, looked, same⟩ := (bind_ok_iff _ _ _).mp got
    have chosen := (pure_ok_iff _ _).mp same
    have named := List.find?_some chosen
    obtain ⟨entry, kept, read⟩ := forall₂_exists ((found records).mp looked).flip record
      (List.mem_of_find?_eq_some chosen)
    obtain ⟨listed, own⟩ := List.mem_filter.mp kept
    exact ⟨beq_iff_eq.mp named, entry, listed, beq_iff_eq.mp own, read, file.record_hash _ _ read⟩

end Opened

/-- A file of one function, in whose row there is another hash than in the hash table. -/
def misfiled : Bytes :=
  ((write .v12 {
    format := .indexed
    version := some .v12
    variant := ⟨true, false, false⟩
    records := [⟨"f", 7, [1], none⟩]
    binaryIds := []
    skipped := [] }).toOption.getD []).overwrite 112 (le64 8)

theorem read_misfiled :
    (do
      let file ← openFile misfiled
      return (← file.lookup 7, ← file.get? ⟨"f", 7⟩)) =
        .ok ([⟨"f", 8, [1], none⟩], some ⟨"f", 8, [1], none⟩) := by
  decide +kernel

theorem open_misfiled : ∃ file, openFile misfiled = .ok file ∧
    file.lookup 7 = .ok [⟨"f", 8, [1], none⟩] ∧
      file.get? ⟨"f", 7⟩ = .ok (some ⟨"f", 8, [1], none⟩) := by
  obtain ⟨file, opened, read⟩ := (bind_ok_iff _ _ _).mp read_misfiled
  obtain ⟨records, looked, read⟩ := (bind_ok_iff _ _ _).mp read
  obtain ⟨got, found, read⟩ := (bind_ok_iff _ _ _).mp read
  cases (pure_ok_iff _ _).mp read
  exact ⟨file, opened, looked, found⟩

theorem lookup_follows_table_misfiled : ∃ file, openFile misfiled = .ok file ∧
    ∃ entries, file.chain (file.bucketOf 7) = .ok entries ∧
      (∀ records, file.lookup 7 = .ok records ↔ List.Forall₂ (fun entry record =>
        file.record entry.index = .ok record) (entries.filter (·.hash == 7)) records) ∧
      (∀ records, file.lookup 7 = .ok records → ((∀ record ∈ records, record.hash = 7) ↔
        ∀ entry ∈ entries, entry.hash = 7 → file.storedHash entry.index = 7)) ∧
      ∀ name record, file.get? ⟨name, 7⟩ = .ok (some record) →
        record.name = name ∧ ∃ entry ∈ entries, entry.hash = 7 ∧
          file.record entry.index = .ok record ∧ record.hash = file.storedHash entry.index := by
  obtain ⟨file, opened, -⟩ := open_misfiled
  exact ⟨file, opened, lookup_follows_table misfiled file opened 7⟩

theorem other_hash_found : ∃ file record, openFile misfiled = .ok file ∧
    file.lookup 7 = .ok [record] ∧ file.get? ⟨"f", 7⟩ = .ok (some record) ∧ record.hash ≠ 7 := by
  obtain ⟨file, opened, looked, found⟩ := open_misfiled
  exact ⟨file, _, opened, looked, found, by decide⟩

end ExecCounts.Indexed
