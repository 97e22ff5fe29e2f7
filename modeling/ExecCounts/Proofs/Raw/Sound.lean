import ExecCounts.Proofs.Damaged
import ExecCounts.Proofs.Policy
import ExecCounts.Proofs.Raw.Entries
import ExecCounts.Proofs.Raw.NameStarts
import ExecCounts.Raw.Writer

set_option autoImplicit false

namespace ExecCounts.Raw

section Words

theorem word_read (cursor : Cursor) (inside : cursor.offset + 8 ≤ cursor.data.length) :
    ∃ after, Read.u64 cursor =
        .ok (UInt64.ofNat (cursor.order.numberAt cursor.data cursor.offset 8)) after ∧
      cursor.Moved 8 after := by
  have length : ((cursor.data.drop cursor.offset).take 8).length = 8 := by
    rw [List.length_take, List.length_drop]
    omega
  have takes : Read.Takes Read.u64 cursor.order 8 := Read.u64_takes
  obtain ⟨word, yields⟩ := takes _ length
  have split : cursor.rest = (cursor.data.drop cursor.offset).take 8 ++
      (cursor.data.drop cursor.offset).drop 8 := by
    rw [List.take_append_drop, cursor.rest_eq]
  obtain ⟨after, ran, -⟩ := yields cursor.offset _ cursor rfl rfl split
  obtain ⟨number, moved⟩ := Read.u64_ran ran
  rw [← number, UInt64.ofNat_toNat]
  exact ⟨after, ran, moved⟩

theorem words_read (count : Nat) (cursor : Cursor)
    (inside : cursor.offset + 8 * count ≤ cursor.data.length) : ∃ after,
      times count Read.u64 cursor = .ok ((List.range count).map fun slot =>
        UInt64.ofNat (cursor.order.numberAt cursor.data (cursor.offset + 8 * slot) 8)) after := by
  induction count generalizing cursor with
  | zero => exact ⟨cursor, rfl⟩
  | succ count ih =>
      obtain ⟨middle, firstRan, moved⟩ := word_read cursor (by omega)
      obtain ⟨after, restRan⟩ := ih middle (by rw [moved.offset, moved.data]; omega)
      refine ⟨after, (Read.times_succ_ran_iff _ _ _).mpr ⟨_, middle, _, firstRan, restRan, ?_⟩⟩
      rw [List.range_succ_eq_map, List.map_cons, List.map_map, moved.order, moved.data, moved.offset]
      refine congrArg _ (List.map_congr_left fun slot _ => ?_)
      rw [Function.comp_apply, Nat.mul_succ, Nat.add_assoc, Nat.add_comm 8]

theorem words_read_at (count offset : Nat) (cursor : Cursor)
    (inside : offset + 8 * count ≤ cursor.data.length) :
    cursor.read (do
      Read.seek offset
      times count Read.u64) = .ok ((List.range count).map fun slot =>
        UInt64.ofNat (cursor.order.numberAt cursor.data (offset + 8 * slot) 8)) := by
  have start : offset ≤ cursor.data.length := by omega
  have sought : Read.seek offset cursor = .ok () (cursor.move offset start) := dif_pos start
  obtain ⟨after, ran⟩ := words_read count (cursor.move offset start) inside
  exact (Read.read_ok_iff _ _).mpr ⟨after, (Read.bind_ran_iff _ _ _).mpr ⟨(), _, sought, ran⟩⟩

end Words

namespace Stored

section Described

variable (stored : Stored) (payloads : List Bytes) (index : Nat)

structure Complete : Prop where
  named : ∃ name, NameStarts payloads (stored.nameRef index) name
  inside : stored.CountersInside index
  valued : ∃ values, stored.Values index values

structure Describes (record : FunctionRecord) : Prop where
  named : ∀ name, NameStarts payloads (stored.nameRef index) name ↔ name = record.name
  hash : record.hash.toNat = stored.hash index
  inside : stored.CountersInside index
  counters : record.counters = stored.counters index
  values : stored.Values index record.values

def Leaves (skipped : Skipped) : Prop :=
  ∀ id, skipped.function = some id ↔
    NameStarts payloads (stored.nameRef index) id.name ∧ id.hash.toNat = stored.hash index

end Described

variable {stored : Stored} {contents : Contents} (opens : stored.Opens contents) {payloads : List Bytes}
  (lists : Lists payloads 0 contents.names) (index : Nat)

section Name

include lists

theorem name_found_iff (name : String) :
    contents.name? (stored.dataRecord index).nameRef = some name ↔
      NameStarts payloads (stored.nameRef index) name := by
  rw [Contents.name?, data_record_ref, Option.map_eq_some_iff]
  constructor
  · rintro ⟨entry, found, rfl⟩
    have place : entry.offset = stored.nameRef index := by simpa using List.find?_some found
    obtain ⟨position, same, starts⟩ := (lists.member entry).mp (List.mem_of_find?_eq_some found)
    rw [Nat.zero_add] at same
    rwa [← place, same]
  · intro starts
    have listed : ⟨stored.nameRef index, name⟩ ∈ contents.names :=
      (lists.member _).mpr ⟨stored.nameRef index, (Nat.zero_add _).symm, starts⟩
    exact ⟨_, find_entry _ lists.ascending _ listed, rfl⟩

end Name

section Counters

include opens

theorem counter_offset :
    (contents.counterOffset index (stored.dataRecord index)).toNat = stored.counterPlace index := by
  have relative : stored.version.rawLayout.relativeCounters = true ↔ stored.version = .v14 := by
    cases stored.version <;> decide
  have pointer := data_record_pointer stored index
  have delta := opens.countersDelta
  have small := contents.countersDelta.toNat_lt
  rw [Contents.counterOffset, counterPlace, opens.version, opens.machine, UInt64.toNat_sub, ← pointer,
    ← delta]
  by_cases newest : stored.version = .v14
  · rw [if_pos (relative.mpr newest), if_pos newest, UInt64.toNat_add, UInt64.toNat_ofNat']
    omega
  · rw [if_neg (mt relative.mp newest), if_neg newest]
    omega

theorem counters_length : contents.counters.data.length = stored.countersLength := by
  have data : contents.counters.data = stored.slice stored.countersStart stored.countersLength :=
    congrArg Cursor.data opens.counters
  have within := opens.within
  rw [namesEnd, namesStart] at within
  rw [data, slice, List.length_take, List.length_drop]
  omega

theorem counters_found (inside : stored.CountersInside index) :
    contents.counters.read (do
      Read.seek (stored.counterPlace index)
      times (stored.counterCount index) Read.u64) = .ok (stored.counters index) := by
  have within := inside.within
  rw [words_read_at _ _ _ (counters_length opens ▸ within), opens.counters, counters]
  refine congrArg Except.ok (List.map_congr_left fun slot member => ?_)
  have early := List.mem_range.mp member
  rw [number, Nat.add_assoc]
  exact congrArg UInt64.ofNat (ByteOrder.number_at_slice _ _ _ _ (by omega))

theorem counters_ok_iff (counters : List Count) :
    contents.counters? index (stored.dataRecord index) = .ok counters ↔
      stored.CountersInside index ∧ counters = stored.counters index := by
  rw [Contents.counters?, counter_offset opens index, data_record_count, counters_length opens]
  by_cases inside : stored.CountersInside index
  · rw [if_pos ⟨inside.aligned, inside.within⟩, and_iff_right inside, counters_found opens index inside,
      Except.ok.injEq, eq_comm]
  · have outside : ¬ (stored.counterPlace index % 8 = 0 ∧
        stored.counterPlace index + 8 * stored.counterCount index ≤ stored.countersLength) :=
      fun both => inside ⟨both.1, both.2⟩
    rw [if_neg outside]
    exact ⟨nofun, fun both => absurd both.1 inside⟩

end Counters

section Resolved

theorem describes_iff {name : String}
    (own : ∀ other, NameStarts payloads (stored.nameRef index) other ↔ other = name)
    (record : FunctionRecord) : stored.Describes payloads index record ↔
      stored.CountersInside index ∧ ∃ values, stored.Values index values ∧
        record = ⟨name, (stored.dataRecord index).hash, stored.counters index, values⟩ := by
  have hash := data_record_hash stored index
  constructor
  · intro described
    have sameName := (own _).mp ((described.named _).mpr rfl)
    have sameHash := UInt64.toNat_inj.mp (described.hash.trans hash.symm)
    refine ⟨described.inside, record.values, described.values, ?_⟩
    rw [← sameName, ← sameHash, ← described.counters]
  · rintro ⟨inside, values, found, rfl⟩
    exact ⟨own, hash, inside, rfl, found⟩

theorem valued_iff {name : String} {counters : List Count} (record : FunctionRecord) :
    (match stored.blob? index with
      | none => pure ⟨name, (stored.dataRecord index).hash, counters, none⟩
      | some blob => do
          let values ← blob.read (Blob.decode (some (stored.dataRecord index).siteCount))
          pure ⟨name, (stored.dataRecord index).hash, counters, some values⟩) =
        (.ok record : Except Failure FunctionRecord) ↔
      ∃ values, stored.Values index values ∧
        record = ⟨name, (stored.dataRecord index).hash, counters, values⟩ := by
  rw [blob?]
  unfold Values
  cases sites : stored.hasSites index with
  | false =>
      constructor
      · rintro ⟨⟩
        exact ⟨none, rfl, rfl⟩
      · rintro ⟨values, rfl, rfl⟩
        rfl
  | true =>
      constructor
      · intro resolved
        obtain ⟨found, decoded, same⟩ := (bind_ok_iff _ _ _).mp resolved
        obtain rfl := (pure_ok_iff _ _).mp same
        obtain ⟨read, counted⟩ := (Blob.decode_declared_ok_iff _ _ _).mp decoded
        simp only [data_record_site_count] at counted
        exact ⟨some found, ⟨found, rfl, read, counted⟩, rfl⟩
      · rintro ⟨values, ⟨found, rfl, read, counted⟩, rfl⟩
        simp only [← data_record_site_count] at counted
        have decoded := (Blob.decode_declared_ok_iff _ _ _).mpr ⟨read, counted⟩
        exact (bind_ok_iff _ _ _).mpr ⟨found, decoded, rfl⟩

include opens lists

theorem entry_ok_iff (record : FunctionRecord) :
    stored.entry contents index = .ok record ↔ stored.Describes payloads index record := by
  have found (name : String) : contents.name? (stored.dataRecord index).nameRef = some name ↔ _ :=
    name_found_iff lists index name
  rw [entry, map_error_ok_iff, Contents.resolve]
  cases named : contents.name? (stored.dataRecord index).nameRef with
  | none =>
      refine ⟨nofun, fun described => ?_⟩
      have starts := (found record.name).mpr ((described.named _).mpr rfl)
      rw [named] at starts
      cases starts
  | some name =>
      have own (other : String) : NameStarts payloads (stored.nameRef index) other ↔ other = name := by
        rw [← found, named, Option.some.injEq, eq_comm]
      rw [map_error_ok_iff, bind_ok_iff, describes_iff index own]
      constructor
      · rintro ⟨counters, counted, valued⟩
        obtain ⟨inside, rfl⟩ := (counters_ok_iff opens index _).mp counted
        exact ⟨inside, (valued_iff index record).mp valued⟩
      · rintro ⟨inside, valued⟩
        have counted := (counters_ok_iff opens index _).mpr ⟨inside, rfl⟩
        exact ⟨_, counted, (valued_iff index record).mpr valued⟩

theorem complete_iff : stored.Complete payloads index ↔ (stored.entry contents index).isOk = true := by
  rw [is_ok_iff]
  constructor
  · intro complete
    obtain ⟨name, starts⟩ := complete.named
    obtain ⟨values, valued⟩ := complete.valued
    have found := (name_found_iff lists index name).mpr starts
    have own (other : String) : NameStarts payloads (stored.nameRef index) other ↔ other = name := by
      rw [← name_found_iff lists, found, Option.some.injEq, eq_comm]
    exact ⟨_, (entry_ok_iff opens lists index _).mpr
      ((describes_iff index own _).mpr ⟨complete.inside, values, valued, rfl⟩)⟩
  · rintro ⟨record, resolved⟩
    have described := (entry_ok_iff opens lists index record).mp resolved
    exact ⟨⟨_, (described.named _).mpr rfl⟩, described.inside, _, described.values⟩

omit opens in
theorem entry_error (failure : Failure) (failed : stored.entry contents index = .error failure) :
    stored.Leaves payloads index (.ofFailure failure) := by
  intro id
  have hash := data_record_hash stored index
  have found (name : String) : contents.name? (stored.dataRecord index).nameRef = some name ↔ _ :=
    name_found_iff lists index name
  rw [entry, Contents.resolve] at failed
  rw [← found]
  cases named : contents.name? (stored.dataRecord index).nameRef with
  | none =>
      rw [named] at failed
      cases failed
      exact ⟨nofun, fun both => nomatch both.1⟩
  | some name =>
      rw [named] at failed
      obtain ⟨inner, innerFailed, rfl⟩ := (map_error_error_iff _ _ _).mp failed
      obtain ⟨first, -, rfl⟩ := (map_error_error_iff _ _ _).mp innerFailed
      change some (FunctionId.mk name _) = some id ↔ _
      rw [Option.some.injEq, Option.some.injEq, ← hash, UInt64.toNat_inj, eq_comm (a := name), eq_comm]
      constructor
      · rintro rfl
        exact ⟨rfl, rfl⟩
      · rintro ⟨rfl, sameHash⟩
        rw [← sameHash]

end Resolved

structure Accounts (stored : Stored) (payloads : List Bytes) (kept left : List Nat)
    (profile : Profile) : Prop where
  kept_ascending : kept.Pairwise (· < ·)
  mem_kept : ∀ index, index ∈ kept ↔
    index < stored.field .dataSize ∧ stored.Complete payloads index
  left_ascending : left.Pairwise (· < ·)
  mem_left : ∀ index, index ∈ left ↔
    index < stored.field .dataSize ∧ ¬ stored.Complete payloads index
  records : List.Forall₂ (stored.Describes payloads) kept profile.records
  skipped : List.Forall₂ (stored.Leaves payloads) left profile.skipped

theorem transcript_accounts (opens : stored.Opens contents) (lists : Lists payloads 0 contents.names)
    (profile : Profile) (records : profile.records = contents.transcript.values)
    (skipped : profile.skipped = contents.transcript.failures.map .ofFailure)
    (ended : contents.transcript.outcome = .ok ()) :
    ∃ kept left, stored.Accounts payloads kept left profile := by
  have atRecord : stored.AtRecord 0 contents.records := by
    rw [opens.records]
    exact ⟨rfl, rfl, (Nat.zero_mul _).symm⟩
  rw [Contents.transcript, opens.recordCount] at ended
  have entries := functions_entries opens _ 0 (by omega) atRecord opens.blobs ended
  rw [← List.range_eq_range'] at entries
  rw [Contents.transcript, opens.recordCount, entries] at records skipped
  have complete := complete_iff opens lists
  refine ⟨(List.range (stored.field .dataSize)).filter fun index => (stored.entry contents index).isOk,
    (List.range (stored.field .dataSize)).filter fun index => !(stored.entry contents index).isOk,
    List.pairwise_lt_range.filter _, fun index => ?_, List.pairwise_lt_range.filter _, fun index => ?_,
    ?_, ?_⟩
  · rw [List.mem_filter, List.mem_range, complete]
  · rw [List.mem_filter, List.mem_range, complete, Bool.not_eq_true, Bool.not_eq_true']
  · rw [records]
    have described (index : Nat) (record : FunctionRecord) := (entry_ok_iff opens lists index record).mp
    exact (Transcript.values_map _ _ _).imp described
  · rw [skipped, List.forall₂_map_right_iff]
    exact Transcript.failures_map _ _ _ (entry_error lists)

end Stored

theorem parse_sound (policy : Policy) (data : Bytes) (profile : Profile)
    (parsed : parse policy data = .ok profile) :
    ∃ (stored : Stored) (payloads : List Bytes) (kept left : List Nat), stored.data = data ∧
      Machine.detect? data = some stored.machine ∧
      storedVersion stored.machine.order data = some stored.version ∧
      stored.namesEnd ≤ data.length ∧
      Chunks (Cursor.ofBytes stored.names stored.machine.order) payloads ∧
      stored.Accounts payloads kept left profile ∧ (policy = .strict → left = []) := by
  rw [parse] at parsed
  obtain ⟨contents, opened, parsed⟩ := (bind_ok_iff _ _ _).mp parsed
  obtain ⟨⟨records, skipped⟩, settled, shape⟩ := (bind_ok_iff _ _ _).mp parsed
  obtain rfl := (pure_ok_iff _ _).mp shape
  obtain ⟨values, failures, strict, ⟨⟩, ended⟩ := Transcript.settle_ok_parts _ _ _ _ settled
  rw [Raw.contents] at opened
  cases detected : Machine.detect? data with
  | none =>
      rw [detected] at opened
      dsimp only at opened
      split at opened <;> cases opened
  | some machine =>
      rw [detected] at opened
      obtain ⟨after, ran⟩ := (Read.read_ok_iff _ _).mp opened
      obtain ⟨version, -, -⟩ := read_contents_ran machine data contents after ran
      obtain ⟨run, rfl⟩ := contents_run_of_ran ran
      have opens := run_opens run
      obtain ⟨payloads, chunks, lists⟩ := read_names_ok _ _ _ opens.names
      obtain ⟨kept, left, accounts⟩ := Stored.transcript_accounts opens lists
        { format := .raw, version := some run.contents.version, variant := run.contents.variant, records
          binaryIds := run.contents.binaryIds, skipped } values failures ended
      refine ⟨run.stored, payloads, kept, left, rfl, rfl, version, opens.within, chunks, accounts, ?_⟩
      intro same
      have none := accounts.skipped
      rw [strict same] at none
      exact List.forall₂_nil_right_iff.mp none

/-- Two functions, the first of which refers to a position in the middle of a name. -/
def misnamed : Bytes :=
  ((write .v14 false {
    format := .raw
    version := some .v14
    variant := ⟨true, false, false⟩
    records := [⟨"f", 7, [3, 0], none⟩, ⟨"gh", 9, [1], some ⟨[[⟨5, 2⟩]], []⟩⟩]
    binaryIds := []
    skipped := [] }).toOption.getD []).overwrite Version.v14.rawLayout.headerSize (le64 3)

theorem parse_misnamed : Profile.records <$> parse .bestEffort misnamed =
    .ok [⟨"gh", 9, [1], some ⟨[[⟨5, 2⟩]], []⟩⟩] := by
  decide +kernel

theorem parse_sound_misnamed : ∃ profile, parse .bestEffort misnamed = .ok profile ∧
    profile.records.length = 1 ∧
    ∃ (stored : Stored) (payloads : List Bytes) (kept left : List Nat), stored.data = misnamed ∧
      Machine.detect? misnamed = some stored.machine ∧
      storedVersion stored.machine.order misnamed = some stored.version ∧
      stored.namesEnd ≤ misnamed.length ∧
      Chunks (Cursor.ofBytes stored.names stored.machine.order) payloads ∧
      stored.Accounts payloads kept left profile ∧ (Policy.bestEffort = .strict → left = []) := by
  obtain ⟨profile, parsed, records⟩ := (map_ok_iff _ _ _).mp parse_misnamed
  exact ⟨profile, parsed, by rw [records]; rfl, parse_sound .bestEffort misnamed profile parsed⟩

end ExecCounts.Raw
