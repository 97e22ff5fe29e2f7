import ExecCounts.Proofs.Raw.Names

set_option autoImplicit false

namespace ExecCounts.Raw

def EndsPart (before : Bytes) : Prop := ∀ byte ∈ before.getLast?, byte = nameSeparator

def StartsPart (after : Bytes) : Prop := ∀ byte ∈ after.head?, byte = nameSeparator

def StartsAt (payload : Bytes) (offset : Nat) (name : String) : Prop :=
  ∃ before part after, payload = before ++ (part ++ after) ∧ before.length = offset ∧
    EndsPart before ∧ StartsPart after ∧ part ≠ [] ∧ nameSeparator ∉ part ∧
      Utf8.text? part = some name

/-- Positions count through the contents of all chunks. -/
def NameStarts (payloads : List Bytes) (position : Nat) (name : String) : Prop :=
  ∃ earlier payload later offset, payloads = earlier ++ payload :: later ∧
    position = earlier.flatten.length + offset ∧ StartsAt payload offset name

inductive Chunks : Cursor → List Bytes → Prop where
  | ended {cursor : Cursor} (zeros : cursor.rest.all (· == 0) = true) : Chunks cursor []
  | chunk {cursor after : Cursor} {payload : Bytes} {payloads : List Bytes}
      (more : cursor.rest.all (· == 0) = false) (ran : Chunk.read cursor = .ok payload after)
      (others : Chunks after payloads) : Chunks cursor (payload :: payloads)

section Parts

variable {payload first rest : Bytes} {offset : Nat} {name : String}

theorem ends_part_absent {before : Bytes} (absent : nameSeparator ∉ before) (ends : EndsPart before) :
    before = [] := by
  by_contra some
  have last := ends _ (List.getLast?_eq_some_getLast some)
  exact absent (last ▸ List.getLast_mem some)

theorem ends_part_behind (before : Bytes) :
    EndsPart (first ++ nameSeparator :: before) ↔ EndsPart before := by
  cases before with
  | nil => simp [EndsPart]
  | cons byte before => simp [EndsPart, List.getLast?_append, List.getLast?_cons_cons]

theorem starts_part_cases {after : Bytes} (starts : StartsPart after) :
    after = [] ∨ ∃ behind, after = nameSeparator :: behind := by
  cases after with
  | nil => exact .inl rfl
  | cons byte behind => exact .inr ⟨behind, by rw [starts byte rfl]⟩

theorem starts_at_last (absent : nameSeparator ∉ payload) : StartsAt payload offset name ↔
    offset = 0 ∧ payload ≠ [] ∧ Utf8.text? payload = some name := by
  constructor
  · rintro ⟨before, part, after, rfl, rfl, ends, starts, some, -, text⟩
    rw [List.mem_append, List.mem_append, not_or, not_or] at absent
    obtain rfl := ends_part_absent absent.1 ends
    obtain rfl | ⟨behind, rfl⟩ := starts_part_cases starts
    · rw [List.append_nil, List.nil_append]
      exact ⟨rfl, some, text⟩
    · exact absurd List.mem_cons_self absent.2.2
  · rintro ⟨rfl, some, text⟩
    exact ⟨[], payload, [], by simp, rfl, nofun, nofun, some, absent, text⟩

theorem starts_at_cons (absent : nameSeparator ∉ first) :
    StartsAt (first ++ nameSeparator :: rest) offset name ↔
      (offset = 0 ∧ first ≠ [] ∧ Utf8.text? first = some name) ∨
        ∃ further, offset = first.length + 1 + further ∧ StartsAt rest further name := by
  constructor
  · rintro ⟨before, part, after, shape, rfl, ends, starts, some, free, text⟩
    -- The name starts behind the first separator or in the part before it.
    obtain ⟨beyond, rfl, same⟩ | ⟨beyond, rfl, same⟩ := List.append_eq_append_iff.mp shape
    · cases beyond with
      | nil =>
          cases part with
          | nil => exact absurd rfl some
          | cons byte part =>
              obtain rfl : nameSeparator = byte := (List.cons.inj same).1
              exact absurd List.mem_cons_self free
      | cons byte beyond =>
          obtain ⟨rfl, rfl⟩ := List.cons.inj same
          refine .inr ⟨beyond.length, ?_, beyond, part, after, rfl, rfl,
            (ends_part_behind beyond).mp ends, starts, some, free, text⟩
          rw [List.length_append, List.length_cons]
          omega
    · rw [List.mem_append, not_or] at absent
      obtain rfl := ends_part_absent absent.1 ends
      obtain rfl | ⟨behind, rfl⟩ := starts_part_cases starts
      · rw [List.append_nil] at same
        rw [same] at free
        exact absurd (List.mem_append_right _ List.mem_cons_self) free
      · have parts := congrArg (parts nameSeparator) same
        rw [parts_append_cons _ free, parts_append_cons _ absent.2] at parts
        obtain rfl := (List.cons.inj parts).1
        exact .inl ⟨rfl, some, text⟩
  · rintro (⟨rfl, some, text⟩ | ⟨further, rfl, before, part, after, rfl, rfl, ends, starts, others⟩)
    · refine ⟨[], first, nameSeparator :: rest, rfl, rfl, nofun, ?_, some, absent, text⟩
      rintro byte ⟨⟩
      rfl
    · refine ⟨first ++ nameSeparator :: before, part, after, ?_, ?_, ?_, starts, others⟩
      · rw [List.append_assoc, List.cons_append]
      · rw [List.length_append, List.length_cons]
        omega
      · exact (ends_part_behind before).mpr ends

end Parts

section Entries

variable {start : Nat} {entries : List NameEntry}

theorem name_entries_cons {part : Bytes} {others : List Bytes}
    (read : nameEntries start (part :: others) = .ok entries) :
    ∃ later, nameEntries (start + part.length + 1) others = .ok later ∧
      (part = [] ∧ entries = later ∨
        ∃ name, part ≠ [] ∧ Utf8.text? part = some name ∧ entries = ⟨start, name⟩ :: later) := by
  rw [nameEntries] at read
  by_cases none : part.isEmpty
  · rw [if_pos none] at read
    obtain rfl := List.isEmpty_iff.mp none
    exact ⟨entries, read, .inl ⟨rfl, rfl⟩⟩
  · rw [if_neg none] at read
    rw [List.isEmpty_iff] at none
    cases text : Utf8.text? part with
    | none =>
        rw [text] at read
        cases read
    | some name =>
        rw [text] at read
        obtain ⟨later, laterRead, rfl⟩ := (map_ok_iff _ _ _).mp read
        exact ⟨later, laterRead, .inr ⟨name, none, rfl, rfl⟩⟩

theorem name_entries_le (parts : List Bytes) (read : nameEntries start parts = .ok entries) :
    ∀ entry ∈ entries, start ≤ entry.offset := by
  induction parts generalizing start entries with
  | nil =>
      cases read
      exact nofun
  | cons part others ih =>
      obtain ⟨later, laterRead, ⟨-, rfl⟩ | ⟨name, -, -, rfl⟩⟩ := name_entries_cons read
      · intro entry member
        have above := ih laterRead entry member
        omega
      · refine List.forall_mem_cons.mpr ⟨Nat.le_refl _, fun entry member => ?_⟩
        have above := ih laterRead entry member
        omega

theorem name_entries_ascending (parts : List Bytes) (read : nameEntries start parts = .ok entries) :
    entries.Pairwise (·.offset < ·.offset) := by
  induction parts generalizing start entries with
  | nil =>
      cases read
      exact List.Pairwise.nil
  | cons part others ih =>
      obtain ⟨later, laterRead, ⟨-, rfl⟩ | ⟨name, -, -, rfl⟩⟩ := name_entries_cons read
      · exact ih laterRead
      · refine List.pairwise_cons.mpr ⟨fun entry member => ?_, ih laterRead⟩
        have above := name_entries_le others laterRead entry member
        dsimp only
        omega

theorem mem_name_entries_cons {part : Bytes} {others : List Bytes}
    (read : nameEntries start (part :: others) = .ok entries) :
    ∃ later, nameEntries (start + part.length + 1) others = .ok later ∧ ∀ entry, entry ∈ entries ↔
      (entry.offset = start ∧ part ≠ [] ∧ Utf8.text? part = some entry.name) ∨ entry ∈ later := by
  obtain ⟨later, laterRead, ⟨rfl, rfl⟩ | ⟨name, some, text, rfl⟩⟩ := name_entries_cons read
  · exact ⟨entries, laterRead, fun entry => by simp⟩
  · refine ⟨later, laterRead, fun ⟨position, other⟩ => ?_⟩
    rw [List.mem_cons, NameEntry.mk.injEq, text, Option.some.injEq, eq_comm (a := name)]
    exact or_congr_left ⟨fun same => ⟨same.1, some, same.2⟩, fun own => ⟨own.1, own.2.2⟩⟩

theorem mem_name_entries (payload : Bytes)
    (read : nameEntries start (parts nameSeparator payload) = .ok entries) (entry : NameEntry) :
    entry ∈ entries ↔ ∃ offset, entry.offset = start + offset ∧ StartsAt payload offset entry.name := by
  induction size : payload.length using Nat.strongRecOn generalizing payload start entries with
  | ind size ih =>
      by_cases separated : nameSeparator ∈ payload
      · obtain ⟨first, rest, rfl, absent⟩ := List.eq_append_cons_of_mem separated
        rw [List.length_append, List.length_cons] at size
        rw [parts_append_cons rest absent] at read
        obtain ⟨later, laterRead, member⟩ := mem_name_entries_cons read
        rw [member, ih rest.length (by omega) rest laterRead rfl]
        simp only [starts_at_cons absent]
        constructor
        · rintro (⟨here, own⟩ | ⟨further, place, starts⟩)
          · exact ⟨0, here, .inl ⟨rfl, own⟩⟩
          · exact ⟨first.length + 1 + further, by omega, .inr ⟨further, rfl, starts⟩⟩
        · rintro ⟨offset, place, ⟨rfl, own⟩ | ⟨further, rfl, starts⟩⟩
          · exact .inl ⟨place, own⟩
          · exact .inr ⟨further, by omega, starts⟩
      · rw [parts_of_not_mem separated] at read
        obtain ⟨later, laterRead, member⟩ := mem_name_entries_cons read
        cases laterRead
        rw [member]
        simp only [starts_at_last separated, List.not_mem_nil, or_false]
        constructor
        · rintro ⟨here, own⟩
          exact ⟨0, here, rfl, own⟩
        · rintro ⟨offset, place, rfl, own⟩
          exact ⟨place, own⟩

end Entries

section Chunks

theorem starts_at_lt {payload : Bytes} {offset : Nat} {name : String}
    (starts : StartsAt payload offset name) : offset < payload.length := by
  obtain ⟨before, part, after, rfl, rfl, -, -, some, -⟩ := starts
  have filled := List.length_pos_iff.mpr some
  rw [List.length_append, List.length_append]
  omega

theorem name_starts_cons (payload : Bytes) (payloads : List Bytes) (position : Nat) (name : String) :
    NameStarts (payload :: payloads) position name ↔ StartsAt payload position name ∨
      ∃ further, position = payload.length + further ∧ NameStarts payloads further name := by
  constructor
  · rintro ⟨earlier, own, later, offset, split, rfl, starts⟩
    cases earlier with
    | nil =>
        obtain ⟨rfl, rfl⟩ := List.cons.inj split
        rw [List.flatten_nil, List.length_nil, Nat.zero_add]
        exact .inl starts
    | cons first earlier =>
        obtain ⟨rfl, rfl⟩ := List.cons.inj split
        refine .inr ⟨earlier.flatten.length + offset, ?_, earlier, own, later, offset, rfl, rfl, starts⟩
        rw [List.flatten_cons, List.length_append, Nat.add_assoc]
  · rintro (starts | ⟨further, rfl, earlier, own, later, offset, rfl, rfl, starts⟩)
    · exact ⟨[], payload, payloads, position, rfl, (Nat.zero_add _).symm, starts⟩
    · refine ⟨payload :: earlier, own, later, offset, rfl, ?_, starts⟩
      rw [List.flatten_cons, List.length_append, Nat.add_assoc]

structure Lists (payloads : List Bytes) (base : Nat) (entries : List NameEntry) : Prop where
  ascending : entries.Pairwise (·.offset < ·.offset)
  member : ∀ entry, entry ∈ entries ↔
    ∃ position, entry.offset = base + position ∧ NameStarts payloads position entry.name

theorem lists_nil (base : Nat) : Lists [] base [] where
  ascending := .nil
  member := by
    refine fun entry => ⟨nofun, ?_⟩
    rintro ⟨position, -, earlier, payload, later, offset, split, -⟩
    cases earlier <;> cases split

theorem lists_cons {payload : Bytes} {payloads : List Bytes} {base : Nat}
    {entries later : List NameEntry}
    (read : nameEntries base (parts nameSeparator payload) = .ok entries)
    (others : Lists payloads (base + payload.length) later) :
    Lists (payload :: payloads) base (entries ++ later) where
  ascending := by
    refine List.pairwise_append.mpr ⟨name_entries_ascending _ read, others.ascending, ?_⟩
    intro entry listed other otherListed
    obtain ⟨offset, place, starts⟩ := (mem_name_entries payload read entry).mp listed
    obtain ⟨position, behind, -⟩ := (others.member other).mp otherListed
    have inside := starts_at_lt starts
    omega
  member := by
    intro entry
    rw [List.mem_append, mem_name_entries payload read, others.member]
    simp only [name_starts_cons]
    constructor
    · rintro (⟨offset, place, starts⟩ | ⟨position, place, starts⟩)
      · exact ⟨offset, place, .inl starts⟩
      · exact ⟨payload.length + position, by omega, .inr ⟨position, rfl, starts⟩⟩
    · rintro ⟨position, place, starts | ⟨further, rfl, starts⟩⟩
      · exact .inl ⟨position, place, starts⟩
      · exact .inr ⟨further, by omega, starts⟩

theorem name_chunks_ran (fuel base : Nat) (cursor after : Cursor) (entries : List NameEntry)
    (room : cursor.rest.length ≤ fuel) (ran : nameChunks fuel base cursor = .ok entries after) :
    ∃ payloads, Chunks cursor payloads ∧ Lists payloads base entries := by
  induction fuel generalizing base cursor after entries with
  | zero =>
      cases ran
      have nothing := List.eq_nil_of_length_eq_zero (Nat.le_zero.mp room)
      exact ⟨[], .ended (by rw [nothing]; rfl), lists_nil base⟩
  | succ fuel ih =>
      rw [nameChunks, Read.run_get] at ran
      cases zeros : cursor.rest.all (· == 0) with
      | true =>
          rw [zeros] at ran
          cases ran
          exact ⟨[], .ended zeros, lists_nil base⟩
      | false =>
          rw [zeros] at ran
          obtain ⟨payload, afterChunk, chunkRan, ran⟩ := (Read.bind_ran_iff _ _ _).mp ran
          obtain ⟨own, afterOwn, ownRan, ran⟩ := (Read.bind_ran_iff _ _ _).mp ran
          obtain ⟨read, rfl⟩ := (Read.of_except_ran_iff _ _).mp ownRan
          obtain ⟨later, last, laterRan, same⟩ := (Read.bind_ran_iff _ _ _).mp ran
          obtain ⟨rfl, -⟩ := (Read.pure_ran_iff _ _).mp same
          obtain ⟨taken, some, moved⟩ := Chunk.read_moves chunkRan
          -- A chunk takes some bytes, so that there is fuel for the others.
          have left : afterChunk.rest.length ≤ fuel := by
            rw [cursor.rest_eq, List.length_drop] at room
            rw [afterChunk.rest_eq, List.length_drop, moved.data, moved.offset]
            omega
          obtain ⟨payloads, chunks, lists⟩ := ih _ afterChunk last later left laterRan
          exact ⟨payload :: payloads, .chunk zeros chunkRan chunks, lists_cons read lists⟩

theorem read_names_ok (names : Bytes) (order : ByteOrder) (entries : List NameEntry)
    (read : readNames (Cursor.ofBytes names order) = .ok entries) :
    ∃ payloads, Chunks (Cursor.ofBytes names order) payloads ∧ Lists payloads 0 entries := by
  obtain ⟨after, ran⟩ := (Read.read_ok_iff _ _).mp read
  exact name_chunks_ran _ 0 _ after entries (Nat.le_refl _) ran

end Chunks

end ExecCounts.Raw
