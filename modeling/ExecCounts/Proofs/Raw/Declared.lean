import ExecCounts.Proofs.Header
import ExecCounts.Proofs.Policy
import ExecCounts.Raw.Reader

set_option autoImplicit false

namespace ExecCounts

namespace Raw

def headerNumber (data : Bytes) (field : RawField) : Option Nat := do
  let machine ← Machine.detect? data
  let version ← storedVersion machine.order data
  return storedField machine.order data 8 version.rawLayout.header field

theorem read_header_eq (listed : List RawField) : readHeader listed = Read.fields Read.u64 listed := by
  induction listed with
  | nil => rfl
  | cons field rest ih => rw [readHeader, Read.fields, ih]

theorem read_contents_ran (machine : Machine) (data : Bytes) (contents : Contents) (after : Cursor)
    (ran : readContents machine (Cursor.ofBytes data machine.order) = .ok contents after) :
    storedVersion machine.order data = some contents.version ∧
      contents.variant = storedVariant machine.order data ∧ contents.recordCount =
        storedField machine.order data 8 contents.version.rawLayout.header .dataSize := by
  rw [readContents] at ran
  obtain ⟨⟨⟩, first, skipRan, ran⟩ := (Read.bind_ran_iff _ _ _).mp ran
  obtain ⟨word, second, wordRan, ran⟩ := (Read.bind_ran_iff _ _ _).mp ran
  obtain ⟨version, third, versionRan, ran⟩ := (Read.bind_ran_iff _ _ _).mp ran
  obtain ⟨header, fourth, headerRan, ran⟩ := (Read.bind_ran_iff _ _ _).mp ran
  -- Nothing that is read from here on changes the version, its flags or the number of records.
  suffices told : Read.Ensures _ fun found : Contents => found.version = version ∧
      found.variant = (Variant.ofWord word).2 ∧ found.recordCount = header.value .dataSize by
    obtain ⟨rfl, flags, count⟩ := told fourth contents after ran
    obtain ⟨required, same⟩ := (Read.of_except_ran_iff _ _).mp versionRan
    obtain ⟨wordNumber, wordMoved⟩ := Read.u64_ran wordRan
    rw [(Read.skip_ran skipRan).number_at] at wordNumber
    have moved := (Read.skip_ran skipRan).trans wordMoved
    have listed : .dataSize ∈ contents.version.rawLayout.header := by
      cases contents.version <;> decide
    rw [read_header_eq] at headerRan
    have field := Read.fields_ran Read.u64 8 (fun _ _ _ => Read.u64_ran) _ _ _ _ headerRan .dataSize
      listed
    rw [← same, moved.order, moved.data, moved.offset] at field
    obtain ⟨found, present, number⟩ := Option.map_eq_some_iff.mp field
    refine ⟨stored_version_eq _ _ word _ wordNumber ((map_error_ok_iff _ _ _).mp required),
      flags.trans (stored_variant_eq _ _ word wordNumber), ?_⟩
    · rw [count, Header.value, present, Option.getD_some, number]
      rfl
  dsimp only
  split
  · exact Read.bind_ensures fun _ => Read.throw_bind_ensures _ _
  · iterate 13 refine Read.bind_ensures fun _ => ?_
    split
    · exact Read.bind_ensures fun _ => Read.bind_ensures fun _ => Read.pure_ensures ⟨rfl, rfl, rfl⟩
    · exact Read.bind_ensures fun _ => Read.pure_ensures ⟨rfl, rfl, rfl⟩

theorem contents_declared (data : Bytes) (contents : Contents)
    (opened : Raw.contents data = .ok contents) :
    headerNumber data .dataSize = some contents.recordCount := by
  rw [Raw.contents] at opened
  rw [headerNumber]
  cases detected : Machine.detect? data with
  | none =>
      rw [detected] at opened
      dsimp only at opened
      split at opened <;> cases opened
  | some machine =>
      rw [detected] at opened
      obtain ⟨after, ran⟩ := (Read.read_ok_iff _ _).mp opened
      obtain ⟨version, -, count⟩ := read_contents_ran machine data contents after ran
      simp only [Option.bind_eq_bind, Option.bind_some, version, count, Option.pure_def]

theorem functions_succ_ok {contents : Contents} {count index : Nat} {records blobs : Cursor}
    (ended : (contents.functions (count + 1) index records blobs).outcome = .ok ()) :
    ∃ record recordsLeft blob blobsLeft,
      DataRecord.read contents.machine.pointer records = .ok record recordsLeft ∧
      Contents.nextBlob record blobs = .ok blob blobsLeft ∧
      (contents.functions count (index + 1) recordsLeft blobsLeft).outcome = .ok () ∧
      contents.functions (count + 1) index records blobs = .cons
        ((contents.resolve index record blob).mapError
          (·.atOffset (contents.recordsOffset + index * contents.machine.recordSize)))
        (contents.functions count (index + 1) recordsLeft blobsLeft) := by
  rw [Contents.functions] at ended ⊢
  cases recordRead : DataRecord.read contents.machine.pointer records with
  | error failure left =>
      rw [recordRead] at ended
      cases ended
  | ok record recordsLeft =>
      rw [recordRead] at ended
      dsimp only at ended ⊢
      cases blobRead : Contents.nextBlob record blobs with
      | error failure left =>
          rw [blobRead] at ended
          cases ended
      | ok blob blobsLeft =>
          rw [blobRead] at ended
          exact ⟨record, recordsLeft, blob, blobsLeft, rfl, blobRead, ended, rfl⟩

theorem functions_length (contents : Contents) (count index : Nat) (records blobs : Cursor)
    (ended : (contents.functions count index records blobs).outcome = .ok ()) :
    (contents.functions count index records blobs).entries.length = count := by
  induction count generalizing index records blobs with
  | zero => rfl
  | succ count ih =>
      obtain ⟨record, recordsLeft, blob, blobsLeft, -, -, rest, shape⟩ := functions_succ_ok ended
      rw [shape]
      exact congrArg (· + 1) (ih (index + 1) recordsLeft blobsLeft rest)

theorem parse_refines (data : Bytes) :
    Refines (fun policy => Raw.parse policy data) Profile.skipped :=
  Refines.after fun contents => contents.transcript.settle_refines _ _ fun _ => rfl

theorem parse_accounts (data : Bytes) (profile : Profile)
    (parsed : parse .bestEffort data = .ok profile) :
    headerNumber data .dataSize = some (profile.records.length + profile.skipped.length) := by
  rw [parse, bind_ok_iff] at parsed
  obtain ⟨contents, opened, parsed⟩ := parsed
  rw [bind_ok_iff] at parsed
  obtain ⟨⟨records, skipped⟩, settled, same⟩ := parsed
  cases (pure_ok_iff _ _).mp same
  obtain ⟨total, ⟨⟩, ended⟩ := contents.transcript.settle_length records skipped settled
  rw [contents_declared data contents opened, total]
  exact congrArg some (functions_length contents _ _ _ _ ended).symm

end Raw

end ExecCounts
