import ExecCounts.Proofs.Chunk
import ExecCounts.Proofs.NamePool
import ExecCounts.Proofs.Outcome
import ExecCounts.Proofs.Parts
import ExecCounts.Raw.Reader
import ExecCounts.Raw.Writer

set_option autoImplicit false

namespace ExecCounts.Raw

theorem is_writable_name_iff (name : String) :
    isWritableName name = true ↔ Utf8.bytes name ≠ [] ∧ nameSeparator ∉ Utf8.bytes name := by
  simp [isWritableName]

theorem join_names_cons (first second : String) (rest : List String) :
    joinNames (first :: second :: rest) =
      Utf8.bytes first ++ nameSeparator :: joinNames (second :: rest) := by
  simp only [joinNames, List.map_cons, List.intercalate_cons_cons, List.append_assoc,
    List.singleton_append]

def placedNames : Nat → List String → List NameEntry
  | _, [] => []
  | start, name :: rest => ⟨start, name⟩ :: placedNames (start + (Utf8.bytes name).length + 1) rest

theorem name_entries_ok (start : Nat) (names : List String)
    (writable : ∀ name ∈ names, Utf8.bytes name ≠ []) :
    nameEntries start (names.map Utf8.bytes) = .ok (placedNames start names) := by
  induction names generalizing start with
  | nil => rfl
  | cons name rest ih =>
      have filled : (Utf8.bytes name).isEmpty ≠ true :=
        fun empty => writable name List.mem_cons_self (List.isEmpty_iff.mp empty)
      have others := ih (start + (Utf8.bytes name).length + 1)
        fun other member => writable other (List.mem_cons_of_mem _ member)
      rw [List.map_cons, nameEntries, if_neg filled, Utf8.text_bytes]
      dsimp only
      rw [others]
      rfl

theorem placed_name_mem (start : Nat) (names : List String) (name : String)
    (listed : name ∈ names) :
    ⟨start + NamePool.offset 1 name names, name⟩ ∈ placedNames start names := by
  induction names generalizing start with
  | nil => cases listed
  | cons first rest ih =>
      rw [placedNames, NamePool.offset]
      by_cases same : first = name
      · rw [if_pos same, same]
        exact List.mem_cons_self
      · have later := ih (start + (Utf8.bytes first).length + 1)
          ((List.mem_cons.mp listed).resolve_left fun here => same here.symm)
        rw [if_neg same, ← Nat.add_assoc, ← Nat.add_assoc]
        exact List.mem_cons_of_mem _ later

theorem placed_names_le (start : Nat) (names : List String) :
    ∀ entry ∈ placedNames start names, start ≤ entry.offset := by
  induction names generalizing start with
  | nil => exact nofun
  | cons name rest ih =>
      refine List.forall_mem_cons.mpr ⟨Nat.le_refl _, fun entry member => ?_⟩
      have above := ih _ entry member
      omega

theorem placed_names_ascending (start : Nat) (names : List String) :
    (placedNames start names).Pairwise (·.offset < ·.offset) := by
  induction names generalizing start with
  | nil => exact List.Pairwise.nil
  | cons name rest ih =>
      refine List.pairwise_cons.mpr ⟨fun entry member => ?_, ih _⟩
      have above := placed_names_le _ _ entry member
      dsimp only
      omega

theorem find_entry (entries : List NameEntry) (ascending : entries.Pairwise (·.offset < ·.offset))
    (entry : NameEntry) (listed : entry ∈ entries) :
    entries.find? (fun other => other.offset == entry.offset) = some entry := by
  induction entries with
  | nil => cases listed
  | cons first rest ih =>
      obtain ⟨least, ascending⟩ := List.pairwise_cons.mp ascending
      rcases List.mem_cons.mp listed with rfl | later
      · exact List.find?_cons_of_pos (beq_self_eq_true _)
      · have below := least entry later
        rw [List.find?_cons_of_neg (by simpa using Nat.ne_of_lt below)]
        exact ih ascending later

section Chunk

variable (names : List String) (writable : ∀ name ∈ names, isWritableName name = true)

include writable

theorem join_names_pos (filled : names ≠ []) : 0 < (joinNames names).length := by
  cases names with
  | nil => exact absurd rfl filled
  | cons first rest =>
      have some := ((is_writable_name_iff first).mp (writable first List.mem_cons_self)).1
      have own := List.length_pos_iff.mpr some
      cases rest with
      | nil => simpa [joinNames] using own
      | cons second rest =>
          rw [join_names_cons, List.length_append]
          omega

theorem placed_names_lt (start : Nat) :
    ∀ entry ∈ placedNames start names, entry.offset < start + (joinNames names).length := by
  induction names generalizing start with
  | nil => exact nofun
  | cons first rest ih =>
      have others := fun name member => writable name (List.mem_cons_of_mem first member)
      refine List.forall_mem_cons.mpr ⟨?_, fun entry member => ?_⟩
      · have some := join_names_pos (first :: rest) writable (List.cons_ne_nil _ _)
        dsimp only
        omega
      · cases rest with
        | nil => cases member
        | cons second rest =>
            have below := ih others _ entry member
            rw [join_names_cons, List.length_append, List.length_cons]
            omega

theorem name_entries_joined (start : Nat) :
    nameEntries start (parts nameSeparator (joinNames names)) = .ok (placedNames start names) := by
  cases names with
  | nil => rfl
  | cons first rest =>
      have absent : ∀ part ∈ (first :: rest).map Utf8.bytes, nameSeparator ∉ part := by
        intro part member
        obtain ⟨name, listed, rfl⟩ := List.mem_map.mp member
        exact ((is_writable_name_iff name).mp (writable name listed)).2
      have split : parts nameSeparator (joinNames (first :: rest)) =
          (first :: rest).map Utf8.bytes :=
        parts_intercalate (Utf8.bytes first) (rest.map Utf8.bytes) absent
      rw [split]
      exact name_entries_ok start _ fun name member =>
        ((is_writable_name_iff name).mp (writable name member)).1

theorem name_chunk_run {order : ByteOrder} {start : Nat} {bytes others : Bytes}
    (fuel base : Nat) (later : List NameEntry)
    (chunkYields : Read.Yields Chunk.read order start bytes others (joinNames names))
    (nonzero : (bytes ++ others).all (· == 0) = false) (cursor : Cursor)
    (ordered : cursor.order = order) (placed : cursor.offset = start)
    (remaining : cursor.rest = bytes ++ others)
    (laterRuns : ∀ middle : Cursor, middle.rest = others → ∃ after : Cursor,
      nameChunks fuel (base + (joinNames names).length) middle = .ok later after) :
    ∃ after : Cursor,
      nameChunks (fuel + 1) base cursor = .ok (placedNames base names ++ later) after := by
  rw [nameChunks, Read.run_get, remaining, nonzero]
  refine Read.run_bind chunkYields cursor ordered placed remaining ?_
  intro middle _ _ _ left
  refine Read.run_bind_nil middle
    (Read.of_except_ok_yields (name_entries_joined names writable base)) ?_
  obtain ⟨after, ran⟩ := laterRuns middle left
  exact ⟨after, (run_bind_ok_iff _ _ _ _ _).mpr ⟨later, after, ran, rfl⟩⟩

end Chunk

theorem name_chunks_end (fuel base : Nat) (cursor : Cursor)
    (zeros : cursor.rest.all (· == 0) = true) :
    ∃ after : Cursor, nameChunks fuel base cursor = .ok [] after := by
  cases fuel with
  | zero => exact ⟨cursor, rfl⟩
  | succ fuel =>
      rw [nameChunks, Read.run_get, zeros]
      exact ⟨cursor, rfl⟩

section Written

variable (deflate : Bytes → Bytes) (compress : Bool) (names : List String)
  (lossless : compress = true → ∀ payload, Zlib.inflate (deflate payload) = .complete payload)
  (writable : ∀ name ∈ names, isWritableName name = true)
  (payloadFits : (joinNames names).length < UInt64.size)
  (fits : (encodeNames deflate compress names).length < UInt64.size)

theorem write_chunk_not_zeros (payload : Bytes) (filled : 0 < payload.length) :
    (Chunk.writeWith deflate compress payload).all (· == 0) = false := by
  obtain ⟨byte, member, nonzero⟩ := Leb128.encode_not_zeros payload.length filled
  rw [List.all_eq_false]
  refine ⟨byte, ?_, by simpa using nonzero⟩
  rw [Chunk.writeWith]
  split <;> simp [member]

include lossless writable payloadFits fits

theorem names_read :
    readNames (Cursor.little (encodeNames deflate compress names)) = .ok (placedNames 0 names) := by
  by_cases none : names = []
  · rw [none]
    rfl
  · have positive := join_names_pos names writable none
    have shape : encodeNames deflate compress names =
        Chunk.writeWith deflate compress (joinNames names) := by
      rw [encodeNames, if_neg (by simpa using none)]
    have nonzero := write_chunk_not_zeros deflate compress _ positive
    rw [← shape] at nonzero
    obtain ⟨fuel, more⟩ : ∃ fuel, (encodeNames deflate compress names).length = fuel + 1 := by
      apply Nat.exists_eq_add_one.mpr
      apply List.length_pos_iff.mpr
      intro empty
      rw [empty] at nonzero
      cases nonzero
    have chunkYields : Read.Yields Chunk.read .little 0 (encodeNames deflate compress names) []
        (joinNames names) := by
      rw [shape] at fits ⊢
      exact Chunk.write_yields deflate compress _ (fun set => lossless set _) payloadFits fits
    have unfinished : (encodeNames deflate compress names ++ []).all (· == 0) = false := by
      rw [List.append_nil, nonzero]
    have run := name_chunk_run names writable fuel 0 [] chunkYields unfinished
      (Cursor.little (encodeNames deflate compress names)) rfl rfl (List.append_nil _).symm
      fun middle left => name_chunks_end _ _ middle (by rw [left]; rfl)
    rw [List.append_nil, ← more] at run
    exact Read.read_of_run run

end Written

section Plain

def placedChunks : Nat → List (List String) → List NameEntry
  | _, [] => []
  | base, names :: rest =>
      placedNames base names ++ placedChunks (base + (joinNames names).length) rest

def plainChunk (names : List String) : Bytes :=
  Leb128.encode (joinNames names).length ++ Leb128.encode 0 ++ joinNames names

def plainNames (chunks : List (List String)) (padding : Nat) : Bytes :=
  chunks.flatMap plainChunk ++ Bytes.zeros padding

theorem plain_names_cons (names : List String) (chunks : List (List String)) (padding : Nat) :
    plainNames (names :: chunks) padding = plainChunk names ++ plainNames chunks padding := by
  simp only [plainNames, List.flatMap_cons, List.append_assoc]

theorem length_plain_chunk (names : List String) :
    (joinNames names).length < (plainChunk names).length := by
  have some := Leb128.encode_pos 0
  simp only [plainChunk, List.length_append]
  omega

variable (chunks : List (List String)) (padding : Nat)
  (writable : ∀ names ∈ chunks, ∀ name ∈ names, isWritableName name = true)

theorem placed_chunks_le (base : Nat) : ∀ entry ∈ placedChunks base chunks, base ≤ entry.offset := by
  induction chunks generalizing base with
  | nil => exact nofun
  | cons names chunks ih =>
      intro entry member
      rcases List.mem_append.mp member with own | later
      · exact placed_names_le base names entry own
      · exact Nat.le_trans (Nat.le_add_right _ _) (ih _ entry later)

include writable

theorem placed_chunks_ascending (base : Nat) :
    (placedChunks base chunks).Pairwise (·.offset < ·.offset) := by
  induction chunks generalizing base with
  | nil => exact List.Pairwise.nil
  | cons names chunks ih =>
      have others := fun other member => writable other (List.mem_cons_of_mem names member)
      refine List.pairwise_append.mpr ⟨placed_names_ascending base names, ih others _, ?_⟩
      intro entry own other later
      have below := placed_names_lt names (writable names List.mem_cons_self) base entry own
      have above := placed_chunks_le chunks _ other later
      omega

theorem placed_chunks_zeros (base : Nat) (zeros : (plainNames chunks padding).all (· == 0) = true) :
    placedChunks base chunks = [] := by
  induction chunks generalizing base with
  | nil => rfl
  | cons names chunks ih =>
      rw [plain_names_cons, List.all_append, Bool.and_eq_true] at zeros
      have none : names = [] := by
        by_contra filled
        have positive := join_names_pos names (writable names List.mem_cons_self) filled
        have nonzero : (plainChunk names).all (· == 0) = false :=
          write_chunk_not_zeros id false (joinNames names) positive
        rw [nonzero] at zeros
        cases zeros.1
      have others := ih (fun other member => writable other (List.mem_cons_of_mem names member))
        (base + (joinNames names).length) zeros.2
      rw [placedChunks, others, none]
      rfl

theorem plain_chunks_run (fits : (plainNames chunks padding).length < UInt64.size) (fuel base : Nat)
    (enough : chunks.length ≤ fuel) (cursor : Cursor)
    (remaining : cursor.rest = plainNames chunks padding) :
    ∃ after : Cursor, nameChunks fuel base cursor = .ok (placedChunks base chunks) after := by
  induction chunks generalizing fuel base cursor with
  | nil =>
      apply name_chunks_end
      rw [remaining]
      simp [plainNames, Bytes.zeros]
  | cons names chunks ih =>
      obtain ⟨fuel, rfl⟩ : ∃ less, fuel = less + 1 := Nat.exists_eq_add_one.mpr (by
        rw [List.length_cons] at enough
        omega)
      by_cases zeros : (plainNames (names :: chunks) padding).all (· == 0) = true
      · rw [placed_chunks_zeros _ padding writable base zeros]
        exact name_chunks_end _ _ cursor (by rw [remaining, zeros])
      · rw [Bool.not_eq_true] at zeros
        have others := fun other member => writable other (List.mem_cons_of_mem names member)
        have payload := length_plain_chunk names
        rw [plain_names_cons] at zeros remaining fits
        rw [List.length_append] at fits
        refine name_chunk_run names (writable names List.mem_cons_self) fuel base _
          (Chunk.stored_yields _ (by omega)) zeros cursor rfl rfl remaining ?_
        exact fun middle left => ih others (by omega) fuel _ (Nat.le_of_succ_le_succ enough) middle left

theorem plain_names_read (order : ByteOrder)
    (fits : (plainNames chunks padding).length < UInt64.size) :
    readNames (Cursor.ofBytes (plainNames chunks padding) order) = .ok (placedChunks 0 chunks) := by
  have enough : chunks.length ≤ (plainNames chunks padding).length := by
    rw [plainNames, List.length_append]
    refine Nat.le_add_right_of_le (length_flat_map_le chunks plainChunk fun names _ => ?_)
    exact Nat.zero_lt_of_lt (length_plain_chunk names)
  exact Read.read_of_run (plain_chunks_run chunks padding writable fits _ 0 enough _ rfl)

end Plain

end ExecCounts.Raw
