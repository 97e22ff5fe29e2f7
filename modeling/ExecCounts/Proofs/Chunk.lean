import ExecCounts.Chunk
import ExecCounts.Proofs.Deflate.StoredBlocks
import ExecCounts.Proofs.Reading
import ExecCounts.Proofs.Taken

set_option autoImplicit false

namespace ExecCounts.Chunk

theorem read_moves {cursor after : Cursor} {payload : Bytes} (ran : read cursor = .ok payload after) :
    ∃ taken, 0 < taken ∧ cursor.Moved taken after := by
  rw [read] at ran
  obtain ⟨start, atStart, startRan, ran⟩ := (Read.bind_ran_iff _ _ _).mp ran
  rw [(Read.position_ran startRan).2] at ran
  obtain ⟨size, afterSize, sizeRan, ran⟩ := (Read.bind_ran_iff _ _ _).mp ran
  obtain ⟨compressedSize, afterSizes, compressedRan, ran⟩ := (Read.bind_ran_iff _ _ _).mp ran
  obtain ⟨sizeUsed, sizeDecoded, sizeMoved⟩ := Read.uleb_ran sizeRan
  obtain ⟨used, -, moved⟩ := Read.uleb_ran compressedRan
  have some := Leb128.decode_pos _ _ _ sizeDecoded
  have moved := sizeMoved.trans moved
  by_cases stored : compressedSize = 0
  · rw [if_pos stored] at ran
    exact ⟨_, by omega, moved.trans (Read.bytes_ran ran).2.2⟩
  · rw [if_neg stored] at ran
    obtain ⟨stream, afterStream, streamRan, ran⟩ := (Read.bind_ran_iff _ _ _).mp ran
    cases expanded : expand size.toNat stream with
    | error detail =>
        rw [expanded] at ran
        cases ran
    | ok output =>
        rw [expanded] at ran
        obtain ⟨-, rfl⟩ := (Read.pure_ran_iff _ _).mp ran
        exact ⟨_, by omega, moved.trans (Read.bytes_ran streamRan).2.2⟩

variable {order : ByteOrder} {start : Nat} {rest : Bytes} (deflate : Bytes → Bytes)

theorem stored_yields (payload : Bytes) (fits : payload.length < UInt64.size) :
    Read.Yields read order start (Leb128.encode payload.length ++ Leb128.encode 0 ++ payload) rest
      payload := by
  apply Read.bind_yields_nil Read.position_yields
  rw [List.append_assoc]
  apply Read.bind_yields (Read.uleb_yields _ fits)
  apply Read.bind_yields (Read.uleb_yields 0 (by decide))
  rw [UInt64.toNat_ofNat_of_lt' fits]
  exact Read.bytes_yields payload

theorem expand_deflate (payload : Bytes)
    (lossless : Zlib.inflate (deflate payload) = .complete payload) :
    expand payload.length (deflate payload) = .ok payload := by
  simp only [expand, lossless, if_true]

theorem compressed_yields (payload : Bytes)
    (lossless : Zlib.inflate (deflate payload) = .complete payload)
    (fits : payload.length < UInt64.size) (streamFits : (deflate payload).length < UInt64.size) :
    Read.Yields read order start (Leb128.encode payload.length ++
      Leb128.encode (deflate payload).length ++ deflate payload) rest payload := by
  have present : UInt64.ofNat (deflate payload).length ≠ 0 := by
    intro none
    have empty : (deflate payload).length = 0 := by
      rw [← UInt64.toNat_ofNat_of_lt' streamFits, none]
      rfl
    rw [List.length_eq_zero_iff.mp empty] at lossless
    cases lossless
  apply Read.bind_yields_nil Read.position_yields
  rw [List.append_assoc]
  apply Read.bind_yields (Read.uleb_yields _ fits)
  apply Read.bind_yields (Read.uleb_yields _ streamFits)
  rw [if_neg present, UInt64.toNat_ofNat_of_lt' fits, UInt64.toNat_ofNat_of_lt' streamFits]
  apply Read.bind_yields_last (Read.bytes_yields (deflate payload))
  rw [expand_deflate deflate payload lossless]
  exact Read.pure_yields payload

theorem write_yields (compress : Bool) (payload : Bytes)
    (lossless : compress = true → Zlib.inflate (deflate payload) = .complete payload)
    (payloadFits : payload.length < UInt64.size)
    (fits : (writeWith deflate compress payload).length < UInt64.size) :
    Read.Yields read order start (writeWith deflate compress payload) rest payload := by
  rw [writeWith] at fits ⊢
  by_cases compressed : (compress && !payload.isEmpty) = true
  · rw [if_pos compressed] at fits ⊢
    have streamFits : (deflate payload).length < UInt64.size := by
      simp only [List.length_append] at fits
      omega
    have set : compress = true := (Bool.and_eq_true_iff.mp compressed).1
    exact compressed_yields deflate payload (lossless set) payloadFits streamFits
  · rw [if_neg compressed]
    exact stored_yields payload payloadFits

section Small

variable (compress : Bool) (payload : Bytes)
  (lossless : Zlib.inflate (deflate payload) = .complete payload)
  (small : (writeWith deflate compress payload).length < UInt32.size)

include lossless small

theorem payload_fits : payload.length < UInt64.size := by
  have bound := Zlib.inflate_length _ payload lossless
  rw [writeWith] at small
  by_cases compressed : (compress && !payload.isEmpty) = true
  · rw [if_pos compressed] at small
    simp only [List.length_append, UInt32.size, UInt64.size] at *
    omega
  · rw [if_neg compressed] at small
    simp only [List.length_append, UInt32.size, UInt64.size] at *
    omega

theorem chunk_yields :
    Read.Yields read order start (writeWith deflate compress payload) rest payload :=
  write_yields deflate compress payload (fun _ => lossless)
    (payload_fits deflate compress payload lossless small) (Nat.lt_trans small (by decide))

end Small

def writeAll (chunks : List (Bool × Bytes)) : Bytes :=
  chunks.flatMap fun (compress, payload) => writeWith deflate compress payload

/-- Byte strings are shorter than 2^64 bytes. -/
theorem chunks_round_trip (chunks : List (Bool × Bytes)) (trailing : Bytes) (cursor : Cursor)
    (lossless : ∀ chunk ∈ chunks, chunk.1 = true →
      Zlib.inflate (deflate chunk.2) = .complete chunk.2)
    (payloadsFit : ∀ chunk ∈ chunks, chunk.2.length < UInt64.size)
    (fits : ∀ chunk ∈ chunks, (writeWith deflate chunk.1 chunk.2).length < UInt64.size)
    (placed : cursor.rest = writeAll deflate chunks ++ trailing) :
    ∃ after, times chunks.length read cursor = .ok (chunks.map Prod.snd) after ∧
      after.data = cursor.data ∧ after.rest = trailing := by
  have each : ∀ chunk ∈ chunks, ∀ start rest, Read.Yields read cursor.order start
      (writeWith deflate chunk.1 chunk.2) rest chunk.2 := by
    intro chunk listed start rest
    exact write_yields deflate chunk.1 chunk.2 (lossless chunk listed) (payloadsFit chunk listed)
      (fits chunk listed)
  obtain ⟨after, ran, data, -, moved⟩ :=
    Read.times_map_yields _ Prod.snd chunks each cursor rfl rfl placed
  exact ⟨after, ran, data, Read.rest_after cursor after _ placed data moved⟩

def mixedChunks : List (Bool × Bytes) := [(true, [5, 5, 5]), (true, []), (false, [0, 1]), (false, [])]

theorem chunks_round_trip_mixed : ∃ after,
    times 4 read (Cursor.little (writeAll Zlib.deflate mixedChunks ++ [7, 8])) =
      .ok [[5, 5, 5], [], [0, 1], []] after ∧ after.rest = [7, 8] := by
  have payloadsFit : ∀ chunk ∈ mixedChunks, chunk.2.length < UInt64.size := by decide
  have fits : ∀ chunk ∈ mixedChunks,
      (writeWith Zlib.deflate chunk.1 chunk.2).length < UInt64.size := by decide +kernel
  obtain ⟨after, ran, -, left⟩ := chunks_round_trip Zlib.deflate mixedChunks [7, 8] (.little _)
    (fun chunk _ _ => Zlib.inflate_deflate chunk.2) payloadsFit fits rfl
  exact ⟨after, ran, left⟩

end ExecCounts.Chunk
