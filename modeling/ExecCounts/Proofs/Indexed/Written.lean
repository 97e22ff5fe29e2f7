import ExecCounts.Indexed.Writer
import ExecCounts.Proofs.Outcome
import ExecCounts.Proofs.Placed

set_option autoImplicit false

namespace ExecCounts.Indexed

theorem encode_uint_ok (width : Width) (n : Nat) (bytes : Bytes)
    (encoded : encodeUint width n = .ok bytes) :
    bytes = ByteOrder.little.write width.size n ∧ (n < UInt64.size → n ≤ width.limit) := by
  cases width with
  | eight =>
      simp only [encodeUint, Except.ok.injEq] at encoded
      exact ⟨encoded.symm, fun fits => Nat.le_sub_one_of_lt fits⟩
  | four =>
      by_cases fits : n < UInt32.size
      · simp only [encodeUint, if_pos fits, Except.ok.injEq] at encoded
        exact ⟨encoded.symm, fun _ => Nat.le_sub_one_of_lt fits⟩
      · simp only [encodeUint, if_neg fits, reduceCtorEq] at encoded

theorem encode_length_ok (what : String) (n : Nat) (bytes : Bytes)
    (encoded : encodeLength what n = .ok bytes) : bytes = le32 n ∧ n < UInt32.size := by
  by_cases fits : n < UInt32.size
  · simp only [encodeLength, if_pos fits, Except.ok.injEq] at encoded
    exact ⟨encoded.symm, fits⟩
  · simp only [encodeLength, if_neg fits, reduceCtorEq] at encoded

section Parts

variable (layout : IndexedLayout)

def entryBytes (recordsOffset : Nat) (entry : ChainEntry) : Bytes :=
  le64 entry.hash.toNat ++
    ByteOrder.little.write layout.offsetWidth.size (recordsOffset + entry.index * layout.recordSize)

def chainBytes (recordsOffset : Nat) (chain : List ChainEntry) : Bytes :=
  if chain.isEmpty then [] else le32 chain.length ++ chain.flatMap (entryBytes layout recordsOffset)

def rowBytes (nameOffset nameLength : Nat) (hash : UInt64)
    (counterIndex counterCount valueOffset valueLength : Nat) : Bytes :=
  let offset := ByteOrder.little.write layout.offsetWidth.size
  offset nameOffset ++ (le32 nameLength ++ (le64 hash.toNat ++ (offset counterIndex ++
    (le32 counterCount ++
      if layout.hasValueProfiles then offset valueOffset ++ le32 valueLength else []))))

def counterBytes (record : FunctionRecord) : Bytes :=
  record.counters.flatMap fun count =>
    ByteOrder.little.write layout.counterWidth.size count.toNat

theorem length_entry_bytes (recordsOffset : Nat) (entry : ChainEntry) :
    (entryBytes layout recordsOffset entry).length = layout.chainEntrySize := by
  simp only [entryBytes, List.length_append, length_le64, length_write,
    IndexedLayout.chainEntrySize]

theorem length_chain_bytes (recordsOffset : Nat) (chain : List ChainEntry) :
    (chainBytes layout recordsOffset chain).length = chainSize layout chain := by
  by_cases empty : chain.isEmpty
  · rw [chainBytes, chainSize, if_pos empty, if_pos empty]
    rfl
  · rw [chainBytes, chainSize, if_neg empty, if_neg empty, List.length_append, length_le32,
      List.length_flatMap]
    simp only [length_entry_bytes, List.map_const', List.sum_replicate_nat]

theorem length_row_bytes (nameOffset nameLength : Nat) (hash : UInt64)
    (counterIndex counterCount valueOffset valueLength : Nat) :
    (rowBytes layout nameOffset nameLength hash counterIndex counterCount valueOffset
      valueLength).length = layout.recordSize := by
  simp only [rowBytes, List.length_append, length_write, length_le32, length_le64,
    IndexedLayout.recordSize]
  split <;> simp only [List.length_append, length_write, length_le32, List.length_nil] <;> omega

theorem length_counter_bytes (record : FunctionRecord) :
    (counterBytes layout record).length = record.counters.length * layout.counterWidth.size := by
  simp only [counterBytes, List.length_flatMap, length_write, List.map_const',
    List.sum_replicate_nat]

end Parts

theorem encode_entry_ok (layout : IndexedLayout) (recordsOffset : Nat) (entry : ChainEntry)
    (bytes : Bytes)
    (encoded : (do
      let offset ← encodeUint layout.offsetWidth (recordsOffset + entry.index * layout.recordSize)
      return le64 entry.hash.toNat ++ offset) = .ok bytes) :
    bytes = entryBytes layout recordsOffset entry ∧
      (recordsOffset + entry.index * layout.recordSize < UInt64.size →
        recordsOffset + entry.index * layout.recordSize ≤ layout.offsetWidth.limit) := by
  simp only [bind_ok_iff, pure_ok_iff] at encoded
  obtain ⟨offset, offsetOk, rfl⟩ := encoded
  obtain ⟨rfl, fits⟩ := encode_uint_ok _ _ _ offsetOk
  exact ⟨rfl, fits⟩

theorem encode_chain_ok (layout : IndexedLayout) (recordsOffset : Nat) (chain : List ChainEntry)
    (bytes : Bytes) (encoded : encodeChain layout recordsOffset chain = .ok bytes) :
    bytes = chainBytes layout recordsOffset chain ∧ ∀ entry ∈ chain,
      recordsOffset + entry.index * layout.recordSize < UInt64.size →
        recordsOffset + entry.index * layout.recordSize ≤ layout.offsetWidth.limit := by
  by_cases empty : chain.isEmpty
  · simp only [encodeChain, if_pos empty, Except.ok.injEq] at encoded
    rw [chainBytes, if_pos empty, List.isEmpty_iff.mp empty]
    exact ⟨encoded.symm, nofun⟩
  · rw [encodeChain, if_neg empty, bind_ok_iff] at encoded
    obtain ⟨entries, each, shape⟩ := encoded
    obtain ⟨rfl, fit⟩ := map_m_ok_of (encode_entry_ok layout recordsOffset) each
    rw [chainBytes, if_neg empty, List.flatMap_def]
    exact ⟨((pure_ok_iff _ _).mp shape).symm, fit⟩

theorem encode_counters_ok (layout : IndexedLayout) (record : FunctionRecord) (bytes : Bytes)
    (encoded : encodeCounters layout.counterWidth record = .ok bytes) :
    bytes = counterBytes layout record ∧
      ∀ count ∈ record.counters, count.toNat ≤ layout.counterWidth.limit := by
  rw [encodeCounters, bind_ok_iff] at encoded
  obtain ⟨counters, each, shape⟩ := encoded
  have one : ∀ (count : Count) (bytes : Bytes),
      (encodeUint layout.counterWidth count.toNat).mapError (·.inFunction record.id) = .ok bytes →
        bytes = ByteOrder.little.write layout.counterWidth.size count.toNat ∧
          count.toNat ≤ layout.counterWidth.limit := by
    intro count bytes ok
    rw [map_error_ok_iff] at ok
    obtain ⟨written, fits⟩ := encode_uint_ok _ _ _ ok
    exact ⟨written, fits count.toNat_lt⟩
  obtain ⟨rfl, fit⟩ := map_m_ok_of one each
  rw [counterBytes, List.flatMap_def]
  exact ⟨((pure_ok_iff _ _).mp shape).symm, fit⟩

structure RowFits (layout : IndexedLayout) (nameOffset nameLength counterIndex counterCount
    valueOffset valueLength : Nat) : Prop where
  nameOffset : nameOffset < UInt64.size → nameOffset ≤ layout.offsetWidth.limit
  nameLength : nameLength < UInt32.size
  counterIndex : counterIndex < UInt64.size → counterIndex ≤ layout.offsetWidth.limit
  counterCount : counterCount < UInt32.size
  valueOffset : layout.hasValueProfiles → valueOffset < UInt64.size →
    valueOffset ≤ layout.offsetWidth.limit
  valueLength : layout.hasValueProfiles → valueLength < UInt32.size

theorem encode_row_ok (layout : IndexedLayout) (names : List String)
    (counterIndex valueOffset : Nat) (record : FunctionRecord) (blob row : Bytes)
    (encoded : encodeRow layout names counterIndex valueOffset record blob = .ok row) :
    row = rowBytes layout (NamePool.offset 0 record.name names) (Utf8.bytes record.name).length
        record.hash counterIndex record.counters.length
        (if blob.isEmpty then 0 else valueOffset) blob.length ∧
      RowFits layout (NamePool.offset 0 record.name names) (Utf8.bytes record.name).length
        counterIndex record.counters.length (if blob.isEmpty then 0 else valueOffset)
        blob.length := by
  simp only [encodeRow, bind_ok_iff] at encoded
  obtain ⟨name, nameOk, nameLength, nameLengthOk, index, indexOk, count, countOk, last⟩ := encoded
  obtain ⟨rfl, nameFits⟩ := encode_uint_ok _ _ _ nameOk
  obtain ⟨rfl, nameLengthFits⟩ := encode_length_ok _ _ _ nameLengthOk
  obtain ⟨rfl, indexFits⟩ := encode_uint_ok _ _ _ indexOk
  obtain ⟨rfl, countFits⟩ := encode_length_ok _ _ _ countOk
  by_cases hasValues : layout.hasValueProfiles
  · simp only [if_pos hasValues, bind_ok_iff, pure_ok_iff] at last
    obtain ⟨offset, offsetOk, length, lengthOk, rfl⟩ := last
    obtain ⟨rfl, offsetFits⟩ := encode_uint_ok _ _ _ offsetOk
    obtain ⟨rfl, lengthFits⟩ := encode_length_ok _ _ _ lengthOk
    refine ⟨?_, nameFits, nameLengthFits, indexFits, countFits, fun _ => offsetFits,
      fun _ => lengthFits⟩
    simp only [rowBytes, if_pos hasValues, List.append_assoc]
  · simp only [if_neg hasValues, pure_ok_iff] at last
    subst last
    refine ⟨?_, nameFits, nameLengthFits, indexFits, countFits, fun has => absurd has hasValues,
      fun has => absurd has hasValues⟩
    simp only [rowBytes, if_neg hasValues, List.append_assoc, List.append_nil]

theorem encode_rows_ok (layout : IndexedLayout) (names : List String)
    (counterIndex valueOffset : Nat) (records : List (FunctionRecord × Bytes)) (bytes : Bytes)
    (encoded : encodeRows layout names counterIndex valueOffset records = .ok bytes) :
    ∃ rows : List Bytes, bytes = rows.flatten ∧ rows.length = records.length ∧
      ∀ (index : Nat) (record : FunctionRecord) (blob : Bytes),
        records[index]? = some (record, blob) → ∃ row, rows[index]? = some row ∧
          encodeRow layout names
            (counterIndex + ((records.take index).flatMap (·.1.counters)).length)
            (valueOffset + ((records.take index).flatMap Prod.snd).length) record blob = .ok row := by
  induction records generalizing counterIndex valueOffset bytes with
  | nil =>
      rw [encodeRows, Except.ok.injEq] at encoded
      exact ⟨[], encoded.symm, rfl, nofun⟩
  | cons head records ih =>
      obtain ⟨record, blob⟩ := head
      simp only [encodeRows, bind_ok_iff, pure_ok_iff, map_error_ok_iff] at encoded
      obtain ⟨row, rowOk, others, othersOk, rfl⟩ := encoded
      obtain ⟨rows, rfl, length, each⟩ := ih _ _ _ othersOk
      refine ⟨row :: rows, rfl, by rw [List.length_cons, length, List.length_cons], ?_⟩
      intro index found foundBlob at_index
      cases index with
      | zero =>
          cases at_index
          exact ⟨row, rfl, rowOk⟩
      | succ index =>
          obtain ⟨later, laterFound, laterOk⟩ := each index found foundBlob at_index
          refine ⟨later, laterFound, ?_⟩
          simpa only [List.take_succ_cons, List.flatMap_cons, List.length_append, Nat.add_assoc]
            using laterOk

end ExecCounts.Indexed
