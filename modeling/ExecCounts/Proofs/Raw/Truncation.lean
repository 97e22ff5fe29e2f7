import ExecCounts.Proofs.Raw.RoundTrip

set_option autoImplicit false

namespace ExecCounts

namespace Raw

theorem next_blob_survives {missing : Bytes} (record : DataRecord) :
    Read.Survives Read.isTruncation missing (Contents.nextBlob record) := by
  rw [Contents.nextBlob]
  split
  · exact Read.map_survives some Blob.frame_survives
  · exact Read.pure_degrades rfl

theorem functions_cut (contents : Contents) (all : List StoredRecord) (index : Nat)
    (reads : ∀ stored ∈ all, stored.Reads contents.machine) (recordCursor blobCursor : Cursor)
    (recordsOrdered : recordCursor.order = contents.machine.order)
    (aligned : recordCursor.offset % 8 = 0)
    (recordsLeft : recordCursor.rest = all.flatMap StoredRecord.bytes)
    (blobsOrdered : blobCursor.order = contents.machine.order) (missing : Bytes)
    (blobsLeft : all.flatMap StoredRecord.blobBytes = blobCursor.rest ++ missing)
    (lost : missing ≠ []) : ∃ count failure,
      contents.functions all.length index recordCursor blobCursor =
        ⟨((all.zipIdx index).map fun (stored, index) => contents.entry index stored).take count,
          .error failure⟩ ∧ failure.kind = .truncatedInput := by
  induction all generalizing index recordCursor blobCursor with
  | nil => exact absurd (List.append_eq_nil_iff.mp blobsLeft.symm).2 lost
  | cons stored all ih =>
      obtain ⟨own, others⟩ := List.forall_mem_cons.mp reads
      rw [List.flatMap_cons] at recordsLeft blobsLeft
      obtain ⟨recordAfter, recordRan, recordData, recordOrder, recordMoved⟩ :=
        own.record recordCursor.offset _ aligned recordCursor recordsOrdered rfl recordsLeft
      have recordsLeft := Read.rest_after recordCursor recordAfter _ recordsLeft recordData recordMoved
      have alignedAfter : recordAfter.offset % 8 = 0 := by
        have size := Dump.record_size_aligned contents.machine
        rw [recordMoved, own.length]
        omega
      rw [List.length_cons, Contents.functions, recordRan]
      dsimp only
      -- The end is missing from the blob of this record or from one behind it.
      obtain ⟨cut, ownCut, some⟩ | ⟨between, whole, behind⟩ := Read.cut_within blobsLeft
      · have needs := Read.needs_of_survives (own.blob blobCursor.offset [])
          fun missing => next_blob_survives stored.record
        obtain ⟨failure, after, failed, kind⟩ :=
          needs _ cut ownCut some blobCursor blobsOrdered rfl rfl
        rw [failed]
        exact ⟨0, failure, rfl, kind⟩
      · obtain ⟨blobAfter, blobRan, blobData, blobOrder, blobMoved⟩ :=
          own.blob blobCursor.offset _ blobCursor blobsOrdered rfl whole
        have left := Read.rest_after blobCursor blobAfter _ whole blobData blobMoved
        rw [← left] at behind
        obtain ⟨count, failure, run, kind⟩ :=
          ih (index + 1) others recordAfter blobAfter recordOrder alignedAfter recordsLeft blobOrder
            behind
        rw [blobRan]
        dsimp only
        rw [run]
        exact ⟨count + 1, failure, rfl, kind⟩

namespace Dump

variable {dump : Dump} {names : List NameEntry}

theorem sound_unpadded (sound : dump.Sound names) (noBlobs : dump.blobs = []) :
    ({ dump with alignment := [] } : Dump).Sound names where
  entries := fun place listed =>
    have fits := sound.entries place listed
    ⟨fits.named, fits.counted, fits.inside, fits.pointed, fits.fewCounters, fits.fewSites,
      fits.storable⟩
  lastKind := sound.lastKind
  aligned := .inr ⟨rfl, noBlobs⟩
  small := by
    have small := sound.small
    rw [length_bytes] at small ⊢
    change dump.body.length + 0 + dump.blobs.length < _
    omega

theorem unpadded_read (policy : Policy) (ascending : names.Pairwise (·.offset < ·.offset))
    (sound : dump.Sound names)
    (namesRead : readNames (Cursor.ofBytes dump.names dump.order) = .ok names)
    (noBlobs : dump.blobs = []) : parse policy dump.body = .ok dump.profile := by
  have read : parse policy _ = _ := sound_read ascending (sound_unpadded sound noBlobs) namesRead
  have shape : ({ dump with alignment := [] } : Dump).bytes = dump.body := by
    change dump.body ++ ([] ++ dump.blobs) = dump.body
    rw [noBlobs, List.append_nil, List.append_nil]
  rwa [shape] at read

theorem undetected (data : Bytes) (short : data.length < 8) : Machine.detect? data = none := by
  rw [Machine.detect?, List.find?_eq_none]
  intro machine _ same
  have length := congrArg List.length (beq_iff_eq.mp same)
  rw [length_magic_bytes, List.length_take] at length
  omega

section Cut

variable (sound : dump.Sound names)
  (namesRead : readNames (Cursor.ofBytes dump.names dump.order) = .ok names) (cut missing : Bytes)
  (shape : dump.bytes = cut ++ missing) (lost : missing ≠ [])

include sound namesRead shape lost

theorem read_contents_cut (padded : ¬ (cut = dump.body ∧ dump.blobs = [])) :
    (∃ failure after, readContents dump.machine (Cursor.ofBytes cut dump.order) =
        .error failure after ∧ failure.kind = .truncatedInput) ∨
      ∃ blobs after lostBlobs, readContents dump.machine (Cursor.ofBytes cut dump.order) =
          .ok (dump.contents names blobs) after ∧ blobs.order = dump.order ∧
        dump.blobs = blobs.rest ++ lostBlobs ∧ lostBlobs ≠ [] := by
  have leads := contents_lead sound rfl namesRead
  obtain ⟨rest, bodyCut, some⟩ | ⟨tail, rfl, behind⟩ := Read.cut_within shape
  · obtain ⟨failure, after, failed, kind⟩ :=
      leads.needs cut rest bodyCut some (Cursor.ofBytes cut dump.order) rfl rfl rfl
    exact .inl ⟨failure, after, failed, kind⟩
  · obtain ⟨middle, data, ordered, placed, ran⟩ :=
      leads.onward (Cursor.ofBytes (dump.body ++ tail) dump.order) tail rfl rfl rfl
    rw [Nat.zero_add] at placed
    change middle.offset = dump.body.length at placed
    have left := Read.rest_after (Cursor.ofBytes (dump.body ++ tail) dump.order) middle dump.body rfl
      data (placed.trans (Nat.zero_add _).symm)
    rw [ran]
    have ended : Read.atEnd middle = .ok tail.isEmpty middle := by
      change EStateM.Result.ok middle.rest.isEmpty middle = _
      rw [left]
    rw [run_bind_of_ok ended]
    -- The names are all there. What is missing are blobs, unless it is padding that nothing
    -- follows.
    by_cases none : tail = []
    · rw [none] at behind left padded ⊢
      have some : dump.blobs ≠ [] := fun noBlobs => padded ⟨List.append_nil _, noBlobs⟩
      exact .inr ⟨middle, middle, dump.blobs, rfl, ordered, by rw [left]; rfl, some⟩
    · have unfinished : tail.isEmpty = false := by rwa [List.isEmpty_eq_false_iff]
      have length : dump.alignment.length = Read.padding dump.body.length 8 := by
        refine sound.aligned.resolve_right fun bare => none ?_
        rw [bare.1, bare.2] at behind
        exact (List.append_eq_nil_iff.mp behind.symm).1
      have aligns : Read.Leads (Read.align 8) (pure ()) dump.order dump.body.length dump.alignment :=
        Read.leads_of_yields (fun rest => Read.align_yields length)
          fun missing => Read.align_survives Read.truncated 8
      have onward : Read.Leads (do
            Read.align 8
            return dump.contentsWith dump.recordsBytes names (← get))
          (do return dump.contentsWith dump.recordsBytes names (← get))
          dump.order dump.body.length dump.alignment :=
        Read.bind_leads_last aligns (Read.leads_self _)
      rw [unfinished]
      obtain ⟨rest, paddingCut, some⟩ | ⟨between, same, blobsCut⟩ := Read.cut_within behind
      · obtain ⟨failure, after, failed, kind⟩ :=
          onward.needs tail rest paddingCut some middle ordered placed left
        exact .inl ⟨failure, after, failed, kind⟩
      · rw [same] at left
        obtain ⟨after, dataOn, orderOn, placedOn, ranOn⟩ :=
          onward.onward middle between ordered placed left
        have blobsLeft := Read.rest_after middle after _ left dataOn (by rw [placedOn, placed])
        exact .inr ⟨after, after, missing, ranOn, orderOn, by rw [blobsLeft, blobsCut], lost⟩

theorem parse_cut (policy : Policy) (ascending : names.Pairwise (·.offset < ·.offset))
    (padded : ¬ (cut = dump.body ∧ dump.blobs = [])) :
    ∃ failure, parse policy cut = .error failure ∧ failure.kind = .truncatedInput := by
  rw [parse, Raw.contents]
  -- The magic is cut, or it is still there and tells the machine.
  by_cases short : cut.length < 8
  · rw [undetected cut short]
    dsimp only
    rw [if_pos short]
    exact ⟨_, rfl, rfl⟩
  · have start : cut.take 8 = dump.machine.magicBytes := by
      rw [← List.take_append_of_le_length (Nat.not_lt.mp short), ← shape, bytes, body,
        List.append_assoc, ← length_magic_bytes dump.machine, List.take_left]
    rw [detect_magic dump.machine cut start]
    dsimp only
    obtain ⟨failure, after, failed, kind⟩ | ⟨blobs, after, lostBlobs, opened, ordered, blobsCut, some⟩ :=
      read_contents_cut sound namesRead cut missing shape lost padded
    · exact ⟨failure, by rw [Cursor.read, failed]; rfl, kind⟩
    · obtain ⟨count, failure, run, kind⟩ := functions_cut (dump.contents names blobs) dump.allStored 0
        (all_stored_reads sound) (Cursor.ofBytes dump.recordsBytes dump.order) blobs rfl rfl
        all_stored_bytes.symm ordered lostBlobs (all_stored_blobs.trans blobsCut) some
      have entries := congrArg Transcript.entries (all_stored_entries sound ascending)
      change dump.allStored.mapIdx (dump.contents names blobs).entry = _ at entries
      rw [length_all_stored, ← List.mapIdx_eq_zipIdx_map, entries, ← List.map_take] at run
      have transcript : (dump.contents names blobs).transcript = _ := run
      refine ⟨failure, ?_, kind⟩
      rw [Read.read_of_run ⟨after, opened⟩]
      change (Transcript.settle policy (Contents.transcript _) >>= _) = _
      rw [transcript, Transcript.settle_stopped]
      rfl

end Cut

end Dump

theorem length_join_names_le (deflate : Bytes → Bytes) (names : List String) :
    (joinNames names).length ≤ (encodeNames deflate false names).length := by
  rw [encodeNames]
  split
  · next none =>
      rw [List.isEmpty_iff.mp none]
      exact Nat.le_refl _
  · rw [Chunk.writeWith]
    simp only [Bool.false_and, Bool.false_eq_true, if_false, List.length_append]
    exact Nat.le_add_left _ _

def namesEnd (version : Version) (profile : Profile) : Nat :=
  let layout := version.rawLayout
  let binaryIds := if layout.hasBinaryIds then encodeBinaryIds profile.binaryIds else []
  let counters := profile.records.flatMap FunctionRecord.counters
  let names := encodeNames Zlib.deflate false (storedNames profile)
  layout.headerSize + binaryIds.length + profile.records.length * writtenMachine.recordSize +
    8 * counters.length + names.length

theorem length_written_body (version : Version) (profile : Profile) :
    (writtenDump Zlib.deflate version false profile).body.length = namesEnd version profile := by
  have count := length_written_entries (storedNames profile) 0 profile.records
  have records := (writtenDump Zlib.deflate version false profile).length_records_from 0
    (writtenDump Zlib.deflate version false profile).entries
  have counters := (writtenDump Zlib.deflate version false profile).length_count_bytes
    (profile.records.flatMap FunctionRecord.counters)
  have entries : (writtenDump Zlib.deflate version false profile).entries =
    writtenEntries (storedNames profile) 0 profile.records := rfl
  rw [entries, count] at records
  rw [Dump.length_body, Dump.length_header_bytes, ← written_ids, Dump.recordsBytes, entries, records,
    namesEnd]
  change _ + 0 + (Dump.countBytes _ (profile.records.flatMap FunctionRecord.counters)).length + 0 +
    (encodeNames Zlib.deflate false (storedNames profile)).length = _
  rw [counters]
  rfl

theorem written_blobs_none_iff (deflate : Bytes → Bytes) (version : Version) (compress : Bool)
    (profile : Profile) : (writtenDump deflate version compress profile).blobs = [] ↔
      ∀ record ∈ profile.records, ∀ kind, record.siteCount kind = 0 := by
  have records := written_records (storedNames profile) 0 profile.records
  have each (entry : DumpEntry) : (writtenDump deflate version compress profile).blobBytes entry = [] ↔
      ∀ kind, entry.record.siteCount kind = 0 := by
    rw [← entry.record.pruned_none_iff, Dump.blobBytes]
    cases entry.record.pruned.values with
    | none => simp
    | some values =>
        have length := Blob.length_blob_bytes (writtenDump deflate version compress profile).order values
        rw [Blob.size_eq] at length
        simp only [Option.map_some, Option.getD_some, reduceCtorEq, iff_false]
        intro none
        rw [none, List.length_nil] at length
        omega
  rw [Dump.blobs, List.flatMap_eq_nil_iff]
  simp only [each]
  rw [← records, List.forall_mem_map]
  rfl

section Written

variable (version : Version) (profile : Profile) (data : Bytes)
  (written : write version false profile = .ok data) (fits : data.length < UInt64.size)
  (cut : Bytes) (beginning : cut <+: data) (shorter : cut.length < data.length) (policy : Policy)

include written fits beginning shorter

theorem truncated_refused :
    (cut.length = namesEnd version profile ∧
        (∀ record ∈ profile.records, ∀ kind, record.siteCount kind = 0) →
      ∃ whole, parse policy data = .ok whole ∧ parse policy cut = .ok whole) ∧
    (¬ (cut.length = namesEnd version profile ∧
        ∀ record ∈ profile.records, ∀ kind, record.siteCount kind = 0) →
      ∃ failure, parse policy cut = .error failure ∧ failure.kind = .truncatedInput) := by
  obtain ⟨missing, split⟩ := beginning
  have lost : missing ≠ [] := by
    rintro rfl
    rw [List.append_nil] at split
    rw [split] at shorter
    exact Nat.lt_irrefl _ shorter
  obtain ⟨shape, -, -⟩ := dump_of_write Zlib.deflate version false profile data written
  have namesFit : (joinNames (storedNames profile)).length < UInt64.size := by
    have stored := length_join_names_le Zlib.deflate (storedNames profile)
    rw [shape, Dump.length_bytes, length_written_body, namesEnd] at fits
    omega
  have sound := written_sound data written namesFit fits
  have namesRead := written_names_read data (fun set => absurd set Bool.false_ne_true) written
    namesFit fits
  have ascending := placed_names_ascending 0 (storedNames profile)
  have bodyEnd := length_written_body version profile
  rw [← written_blobs_none_iff Zlib.deflate version false profile]
  -- The names end where the file without padding and blobs does.
  have here : cut.length = namesEnd version profile ↔
      cut = (writtenDump Zlib.deflate version false profile).body := by
    refine ⟨fun length => ?_, fun same => by rw [same, bodyEnd]⟩
    rw [Dump.bytes] at shape
    rw [← bodyEnd] at length
    exact List.append_inj_left (split.trans shape) length
  rw [here]
  constructor
  · rintro ⟨atEnd, noBlobs⟩
    refine ⟨(writtenDump Zlib.deflate version false profile).profile, ?_, ?_⟩
    · rw [shape]
      exact Dump.sound_read ascending sound namesRead
    · rw [atEnd]
      exact Dump.unpadded_read policy ascending sound namesRead noBlobs
  · intro padded
    exact Dump.parse_cut sound namesRead cut missing (shape.symm.trans split.symm) lost policy ascending
      padded

end Written

def bareCounters : Profile where
  format := .raw
  version := some .v13
  variant := ⟨true, false, false⟩
  records := [⟨"f", 7, [3, 0], none⟩, ⟨"g", 9, [1], some ⟨[], []⟩⟩]
  binaryIds := []
  skipped := []

theorem write_bare_counters : ∃ data : Bytes,
    write .v13 false bareCounters = .ok data ∧ data.length = 216 := by
  apply (to_option_map_some_iff _ List.length _).mp
  decide +kernel

/-- The last three bytes are padding, which only a file without value sites can lack. -/
theorem truncated_refused_bare_counters : ∃ data : Bytes,
    write .v13 false bareCounters = .ok data ∧ data.length < UInt64.size ∧
      data.take 213 <+: data ∧ (data.take 213).length < data.length ∧
        (data.take 214).length < data.length ∧
          (∃ whole, parse .strict data = .ok whole ∧ parse .strict (data.take 213) = .ok whole) ∧
            ∃ failure, parse .bestEffort (data.take 214) = .error failure ∧
              failure.kind = .truncatedInput := by
  obtain ⟨data, written, length⟩ := write_bare_counters
  have names : namesEnd .v13 bareCounters = 213 := by decide +kernel
  have fits : data.length < UInt64.size := by
    rw [length]
    decide
  have taken (n : Nat) (some : n < 216) : (data.take n).length = n := by
    rw [List.length_take, length]
    omega
  have shorter (n : Nat) (some : n < 216) : (data.take n).length < data.length := by
    rw [taken n some, length]
    exact some
  have atEnd : (data.take 213).length = namesEnd .v13 bareCounters := by
    rw [taken 213 (by decide), names]
  have within : (data.take 214).length ≠ namesEnd .v13 bareCounters := by
    rw [taken 214 (by decide), names]
    decide
  have siteless : ∀ record ∈ bareCounters.records, ∀ kind, record.siteCount kind = 0 := by
    intro record member kind
    rcases List.mem_pair.mp member with rfl | rfl <;> cases kind <;> rfl
  have accepted := (truncated_refused .v13 bareCounters data written fits (data.take 213)
    (List.take_prefix _ _) (shorter 213 (by decide)) .strict).1 ⟨atEnd, siteless⟩
  have refused := (truncated_refused .v13 bareCounters data written fits (data.take 214)
    (List.take_prefix _ _) (shorter 214 (by decide)) .bestEffort).2 fun same => within same.1
  exact ⟨data, written, fits, List.take_prefix _ _, shorter 213 (by decide),
    shorter 214 (by decide), accepted, refused⟩

end Raw

end ExecCounts
