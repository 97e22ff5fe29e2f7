import ExecCounts.Profile.Detect
import ExecCounts.Proofs.Indexed.Image
import ExecCounts.Proofs.Raw.Written
import ExecCounts.Proofs.TextProfile.Start

set_option autoImplicit false

namespace ExecCounts

section Detected

variable {data : Bytes}

theorem Raw.written_detected (deflate : Bytes → Bytes) (version : Version) (compress : Bool)
    (profile : Profile) (written : writeWith deflate version compress profile = .ok data) :
    Format.detect data = some .raw := by
  obtain ⟨rfl, -, -⟩ := dump_of_write deflate version compress profile data written
  rw [Format.detect, isRaw, Dump.detected]
  rfl

theorem Indexed.written_detected (version : Version) (profile : Profile)
    (written : write version profile = .ok data) : Format.detect data = some .indexed := by
  obtain ⟨image⟩ := image_of_write version profile data written
  have start : data.take 8 = le64 magic := by
    rw [image.shape, headerBytes, List.append_assoc, List.append_assoc, ← length_le64 magic,
      List.take_left]
  have other : Raw.isRaw data = false := by
    rw [Raw.isRaw, Raw.Machine.detect?, start]
    decide
  rw [Format.detect, other, if_neg Bool.false_ne_true, isIndexed, start, beq_self_eq_true, if_pos rfl]

theorem TextProfile.written_unlike_binary (profile : Profile) :
    Raw.isRaw (printed (linesOf profile)) = false ∧
      Indexed.isIndexed (printed (linesOf profile)) = false := by
  obtain ⟨rest, shape⟩ := starts_with_comment profile
  have differs : ∀ magic : Bytes, magic.head? ≠ some 0x23 →
      ((printed (linesOf profile)).take 8 == magic) = false := by
    intro magic other
    rw [beq_eq_false_iff_ne]
    rintro rfl
    rw [shape] at other
    exact other rfl
  refine ⟨?_, differs _ (by decide)⟩
  rw [Raw.isRaw, Raw.Machine.detect?, Option.isSome_eq_false_iff, Option.isNone_iff_eq_none,
    List.find?_eq_none]
  intro machine _
  rw [differs _ (by obtain ⟨order, pointer⟩ := machine; cases order <;> cases pointer <;> decide)]
  exact Bool.false_ne_true

theorem TextProfile.written_detected (profile : Profile) (text : String)
    (written : write profile = .ok text) :
    (StartsPlain profile → Format.detect (Utf8.bytes text) = some .text) ∧
      (¬ StartsPlain profile → Format.detect (Utf8.bytes text) = none) := by
  obtain ⟨other, another⟩ := written_unlike_binary profile
  rw [written_bytes profile text written, Format.detect, other, another, ← is_text_iff,
    if_neg Bool.false_ne_true, if_neg Bool.false_ne_true]
  exact ⟨fun plain => if_pos plain, fun plain => if_neg plain⟩

end Detected

namespace Profile

theorem written_formats_detected (policy : Policy) (profile : Profile) :
    (∀ deflate version compress data,
      Raw.writeWith deflate version compress profile = .ok data →
        Format.detect data = some .raw ∧ read policy data = Raw.parse policy data) ∧
    (∀ version data, Indexed.write version profile = .ok data →
      Format.detect data = some .indexed ∧ read policy data = Indexed.parse policy data) ∧
    (∀ text, TextProfile.write profile = .ok text →
      (TextProfile.StartsPlain profile → Format.detect (Utf8.bytes text) = some .text ∧
        read policy (Utf8.bytes text) = TextProfile.parse policy (Utf8.bytes text)) ∧
      (¬ TextProfile.StartsPlain profile → Format.detect (Utf8.bytes text) = none ∧
        read policy (Utf8.bytes text) = .error unknownFormat)) := by
  refine ⟨?_, ?_, ?_⟩
  · intro deflate version compress data written
    have detected := Raw.written_detected deflate version compress profile written
    exact ⟨detected, by rw [read, detected]⟩
  · intro version data written
    have detected := Indexed.written_detected version profile written
    exact ⟨detected, by rw [read, detected]⟩
  · intro text written
    obtain ⟨plain, other⟩ := TextProfile.written_detected profile text written
    exact ⟨fun starts => ⟨plain starts, by rw [read, plain starts]⟩,
      fun starts => ⟨other starts, by rw [read, other starts]⟩⟩

def lateAccent : Profile where
  format := .text
  version := none
  variant := .plain
  records := [⟨"main", 7, [3, 0], none⟩, ⟨"é", 1, [], none⟩]
  binaryIds := []
  skipped := []

theorem late_accent_written : (Raw.write .v14 false lateAccent).isOk = true ∧
    (Indexed.write .v14 lateAccent).isOk = true ∧ (TextProfile.write lateAccent).isOk = true := by
  have buckets : Indexed.bucketCountFor lateAccent.records.length = 2 := by cbv
  refine ⟨by decide +kernel, ?_, by decide +kernel⟩
  unfold Indexed.write
  simp only [buckets]
  decide +kernel

theorem late_accent_starts_plain : TextProfile.StartsPlain lateAccent := by
  rw [← TextProfile.is_text_iff]
  decide +kernel

theorem written_formats_detected_late_accent : ∃ raw indexed text,
    Raw.write .v14 false lateAccent = .ok raw ∧ Indexed.write .v14 lateAccent = .ok indexed ∧
      TextProfile.write lateAccent = .ok text ∧ Format.detect raw = some .raw ∧
      Format.detect indexed = some .indexed ∧ Format.detect (Utf8.bytes text) = some .text := by
  obtain ⟨rawOk, indexedOk, textOk⟩ := late_accent_written
  obtain ⟨raw, rawWritten⟩ := (is_ok_iff _).mp rawOk
  obtain ⟨indexed, indexedWritten⟩ := (is_ok_iff _).mp indexedOk
  obtain ⟨text, textWritten⟩ := (is_ok_iff _).mp textOk
  obtain ⟨ofRaw, ofIndexed, ofText⟩ := written_formats_detected .strict lateAccent
  exact ⟨raw, indexed, text, rawWritten, indexedWritten, textWritten,
    (ofRaw _ _ _ _ rawWritten).1, (ofIndexed _ _ indexedWritten).1,
    ((ofText _ textWritten).1 late_accent_starts_plain).1⟩

def earlyAccent : Profile := { lateAccent with records := [⟨"é", 1, [], none⟩] }

theorem early_accent_undetected : ∃ text, TextProfile.write earlyAccent = .ok text ∧
    Format.detect (Utf8.bytes text) = none ∧
      read .strict (Utf8.bytes text) = .error unknownFormat := by
  have textOk : (TextProfile.write earlyAccent).isOk = true := by decide +kernel
  obtain ⟨text, written⟩ := (is_ok_iff _).mp textOk
  have starts : ¬ TextProfile.StartsPlain earlyAccent := by
    rw [← TextProfile.is_text_iff]
    decide +kernel
  have undetected := (TextProfile.written_detected earlyAccent text written).2 starts
  exact ⟨text, written, undetected, by rw [read, undetected]⟩

end Profile

end ExecCounts
