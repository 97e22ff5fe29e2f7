import ExecCounts.Proofs.Raw.Records

set_option autoImplicit false

namespace ExecCounts.Raw

theorem plain_dump_read (dump : Dump) (chunks : List (List String)) (padding : Nat)
    (stored : dump.names = plainNames chunks padding)
    (writable : ∀ names ∈ chunks, ∀ name ∈ names, isWritableName name = true)
    (sound : dump.Sound (placedChunks 0 chunks)) :
    parse .strict dump.bytes = .ok dump.profile := by
  have small := sound.small
  rw [Dump.length_bytes, Dump.length_body, stored] at small
  have namesRead := plain_names_read chunks padding writable dump.order (by omega)
  rw [← stored] at namesRead
  exact Dump.sound_read (placed_chunks_ascending chunks writable 0) sound namesRead

/-- Three functions of a big-endian machine with 32-bit pointers. The counters of the first lie
behind those of the second, which share one with them, and the name of the last is in a second
chunk. -/
def reordered : Dump where
  machine := ⟨.big, .four⟩
  version := .v14
  variant := ⟨true, false, true⟩
  ids := [[1, 2, 3]]
  entries := [
    ⟨⟨"f", 7, [7, 8], none⟩, 0, 2, 0x400, 0x500⟩,
    ⟨⟨"g", 8, [5, 6, 7], some ⟨[[⟨9, 1⟩], []], []⟩⟩, 2, 0, 0x404, 0x508⟩,
    ⟨⟨"h", 9, [], none⟩, 3, 4, 0x408, 0⟩]
  paddingBefore := [1]
  counters := [5, 6, 7, 8]
  paddingAfter := [2, 3]
  names := plainNames [["f", "g"], ["h"]] 3
  countersDelta := 0x1000
  namesDelta := 0x2000
  lastKind := 1
  alignment := [4, 5]

theorem reordered_sound : reordered.Sound (placedChunks 0 [["f", "g"], ["h"]]) where
  entries := by
    refine List.forall_mem_cons.mpr ⟨?_, List.forall_mem_cons.mpr
      ⟨?_, List.forall_mem_singleton.mpr ?_⟩⟩
    · exact ⟨by decide +kernel, by decide, by decide, by decide +kernel, by decide,
        fun kind => by cases kind <;> decide, nofun⟩
    · refine ⟨by decide +kernel, by decide, by decide, by decide +kernel, by decide,
        fun kind => by cases kind <;> decide, fun values kept => ?_⟩
      cases kept
      exact ⟨fun kind => by cases kind <;> decide, by decide⟩
    · exact ⟨by decide +kernel, by decide, by decide, by decide +kernel, by decide,
        fun kind => by cases kind <;> decide, nofun⟩
  lastKind := by decide
  aligned := .inl (by decide +kernel)
  small := by decide +kernel

theorem plain_dump_read_reordered :
    reordered.names = plainNames [["f", "g"], ["h"]] 3 ∧
      (∀ names ∈ [["f", "g"], ["h"]], ∀ name ∈ names, isWritableName name = true) ∧
        reordered.Sound (placedChunks 0 [["f", "g"], ["h"]]) ∧
          parse .strict reordered.bytes = .ok reordered.profile := by
  have writable : ∀ names ∈ [["f", "g"], ["h"]], ∀ name ∈ names, isWritableName name = true := by
    decide +kernel
  exact ⟨rfl, writable, reordered_sound,
    plain_dump_read reordered [["f", "g"], ["h"]] 3 rfl writable reordered_sound⟩

end ExecCounts.Raw
