import ExecCounts.Proofs.Crc32
import ExecCounts.Proofs.Indexed.Damaged

set_option autoImplicit false

namespace ExecCounts

section Agree

variable {first second : Bytes} {start stop : Nat}

theorem take_agree (agree : ∀ index < start, first[index]? = second[index]?) :
    first.take start = second.take start := by
  apply List.ext_getElem?
  intro index
  rw [List.getElem?_take, List.getElem?_take]
  split
  · exact agree index ‹_›
  · rfl

theorem drop_agree (agree : ∀ index, stop ≤ index → first[index]? = second[index]?) :
    first.drop stop = second.drop stop := by
  apply List.ext_getElem?
  intro index
  rw [List.getElem?_drop, List.getElem?_drop]
  exact agree _ (Nat.le_add_right _ _)

end Agree

theorem crc32_window (first second : Bytes) (length : first.length = second.length) (start : Nat)
    (window : ∀ index, first[index]? ≠ second[index]? → start ≤ index ∧ index < start + 4)
    (same : crc32 first = crc32 second) : first = second := by
  have agree : ∀ index, index < start ∨ start + 4 ≤ index → first[index]? = second[index]? := by
    intro index outside
    by_contra apart
    have inside := window index apart
    omega
  have before := take_agree fun index less => agree index (.inl less)
  have after := drop_agree fun index behind => agree index (.inr behind)
  have parts : ∀ data : Bytes,
      data = data.take start ++ ((data.drop start).take 4 ++ data.drop (start + 4)) := by
    intro data
    rw [← List.drop_drop, List.take_append_drop, List.take_append_drop]
  have lengths : ((first.drop start).take 4).length = ((second.drop start).take 4).length := by
    rw [List.length_take, List.length_take, List.length_drop, List.length_drop, length]
  rw [parts first, parts second, before, after] at same
  have inside := crc32_burst _ _ _ _ lengths (List.length_take_le _ _) same
  rw [parts first, parts second, before, after, inside]

theorem crc32_behind (data damaged : Bytes) (length : damaged.length = data.length)
    (differs : damaged ≠ data) (size start : Nat) (window : ∀ index,
      damaged[index]? ≠ data[index]? → size ≤ index ∧ start ≤ index ∧ index < start + 4) :
    damaged.take size = data.take size ∧ crc32 (damaged.drop size) ≠ crc32 (data.drop size) := by
  have front : damaged.take size = data.take size := by
    apply take_agree
    intro index less
    by_contra apart
    exact absurd (window index apart).1 (Nat.not_le_of_lt less)
  refine ⟨front, fun same => differs ?_⟩
  have lengths : (damaged.drop size).length = (data.drop size).length := by
    rw [List.length_drop, List.length_drop, length]
  have back : damaged.drop size = data.drop size := by
    refine crc32_window _ _ lengths (start - size) (fun index apart => ?_) same
    rw [List.getElem?_drop, List.getElem?_drop] at apart
    have inside := window _ apart
    omega
  rw [← List.take_append_drop size damaged, front, back, List.take_append_drop]

theorem Cursor.damaged_behind (data damaged : Bytes) (length : damaged.length = data.length)
    (size : Nat) (within : size ≤ data.length) (front : damaged.take size = data.take size) :
    (little data).Damaged size (damaged.drop size) (little damaged) := by
  have room : size + (damaged.drop size).length = data.length := by
    rw [List.length_drop, length]
    omega
  refine ⟨Nat.le_of_eq room, ?_, rfl, rfl⟩
  change damaged = data.overwrite size (damaged.drop size)
  rw [Bytes.overwrite, room, List.drop_length, List.append_nil, ← front, List.take_append_drop]

namespace Indexed

section Summed

variable {width : Width} {fields : List IndexedField} {cursor after : Cursor} {header : Header}

theorem check_sum_present (ran : Header.read width fields cursor = .ok header after)
    (listed : fields.contains .checksum = true) : ∃ expected, header.value? .checksum = some expected := by
  rw [← Option.isSome_iff_exists, Header.value?, Option.isSome_map, Option.isSome_iff_ne_none]
  intro none
  rw [List.lookup_eq_none_iff] at none
  rw [read_header_eq] at ran
  rw [List.contains_iff_mem, ← Read.fields_keys _ _ _ _ _ ran] at listed
  obtain ⟨pair, member, same⟩ := List.mem_map.mp listed
  have other := none pair member
  rw [same, bne_self_eq_false] at other
  cases other

theorem check_sum_refuses (rest other : Bytes) (present : ∃ expected, header.value? .checksum = some expected)
    (summed : checkSum header rest = .ok ()) (apart : crc32 other ≠ crc32 rest) :
    ∃ failure, checkSum header other = .error failure ∧ failure.kind = .corruptIndex := by
  obtain ⟨expected, found⟩ := present
  rw [checkSum, found] at summed ⊢
  dsimp only at summed ⊢
  by_cases right : (crc32 rest).toNat = expected
  · rw [← right, if_neg fun same => apart (UInt32.toNat_inj.mp same)]
    exact ⟨_, rfl, rfl⟩
  · rw [if_neg right] at summed
    cases summed

end Summed

theorem read_file_unsummed {cursor other : Cursor} {start : Nat} {patch : Bytes}
    (run : FileRun cursor) (damaged : cursor.Damaged start patch other)
    (behind : run.afterHeader.offset ≤ start) (failure : Failure)
    (refused : checkSum run.header (other.data.drop run.afterHeader.offset) = .error failure) :
    ∃ left, readFile other = .error failure left := by
  have magicEnd := (Read.u64_ran run.magicRan).2.offset
  have wordEnd := (Read.u64_ran run.wordRan).2.offset
  have headerEnd := ((header_local _ _).onward run.headerRan).2
  obtain ⟨afterMagic, magicRan, magicDamaged⟩ :=
    Read.u64_local.damaged damaged run.magicRan (.inl (by omega))
  obtain ⟨afterWord, wordRan, wordDamaged⟩ :=
    Read.u64_local.damaged magicDamaged run.wordRan (.inl (by omega))
  obtain ⟨afterHeader, headerRan, headerDamaged⟩ :=
    (header_local _ _).damaged wordDamaged run.headerRan (.inl behind)
  have required : Read.ofExcept ((Version.require (Variant.ofWord run.word).1).mapError
      (Failure.atOffset 8)) afterWord = .ok run.version afterWord :=
    (Read.of_except_ran_iff _ _).mpr ⟨(map_error_ok_iff _ _ _).mpr run.required, rfl⟩
  have position : Read.position afterHeader = .ok afterHeader.offset afterHeader := rfl
  have sameData : afterHeader.data = other.data := by
    rw [((header_local _ _).onward headerRan).1, (Read.u64_ran wordRan).2.data,
      (Read.u64_ran magicRan).2.data]
  have rest : checkSum run.header afterHeader.rest = .error failure := by
    rw [afterHeader.rest_eq, headerDamaged.offset, sameData]
    exact refused
  refine ⟨afterHeader, ?_⟩
  rw [readFile, run_bind_of_ok magicRan]
  dsimp only
  rw [if_neg (not_not.mpr run.isMagic), run_bind_of_ok wordRan, run_bind_of_ok required,
    run_bind_of_ok headerRan, run_bind_of_ok position, if_neg (not_not.mpr run.hashKnown),
    Read.run_get, rest]
  rfl

theorem summed_version {version : Version} (summed : version = .v13 ∨ version = .v14) :
    version.indexedLayout.header.contains .checksum = true := by
  obtain rfl | rfl := summed <;> rfl

theorem checksum_detects_burst (data damaged : Bytes) (file : File)
    (opened : openFile data = .ok file) (summed : file.version = .v13 ∨ file.version = .v14)
    (length : damaged.length = data.length) (differs : damaged ≠ data) (start : Nat)
    (window : ∀ index, damaged[index]? ≠ data[index]? →
      file.layout.headerSize ≤ index ∧ start ≤ index ∧ index < start + 4) :
    ∃ failure, openFile damaged = .error failure ∧ failure.kind = .corruptIndex := by
  obtain ⟨⟨run, rfl⟩, -⟩ := (open_file_ok_iff _ _).mp opened
  rw [← header_end run rfl] at window
  have kept : run.afterHeader.data = data := by
    rw [((header_local _ _).onward run.headerRan).1, (Read.u64_ran run.wordRan).2.data,
      (Read.u64_ran run.magicRan).2.data]
    rfl
  have within := run.afterHeader.offset_le
  rw [kept] at within
  obtain ⟨front, apart⟩ := crc32_behind data damaged length differs _ start window
  have hit := Cursor.damaged_behind data damaged length _ within front
  obtain ⟨failure, refused, corrupt⟩ := check_sum_refuses _ (damaged.drop run.afterHeader.offset)
    (check_sum_present run.headerRan (summed_version summed)) run.summed
      (by rw [run.afterHeader.rest_eq, kept]; exact apart)
  obtain ⟨left, failed⟩ := read_file_unsummed run hit (Nat.le_refl _) failure refused
  refine ⟨failure, ?_, corrupt⟩
  rw [openFile, Cursor.read, failed]
  rfl

def summedFile : Bytes :=
  (write .v14 {
    format := .indexed
    version := some .v14
    variant := ⟨true, false, false⟩
    records := []
    binaryIds := []
    skipped := [] }).toOption.getD []

theorem checksum_detects_burst_bucket : ∃ damaged file, openFile summedFile = .ok file ∧
    file.version = .v14 ∧ damaged = summedFile.overwrite 78 [1, 0, 7, 1] ∧
      damaged.length = summedFile.length ∧ damaged ≠ summedFile ∧
      (∀ index, damaged[index]? ≠ summedFile[index]? →
        file.layout.headerSize ≤ index ∧ 78 ≤ index ∧ index < 78 + 4) ∧
      ∃ failure, openFile damaged = .error failure ∧ failure.kind = .corruptIndex := by
  have versionRead : (openFile summedFile).map File.version = .ok .v14 := by decide +kernel
  have size : summedFile.length = 88 := by decide +kernel
  have same : (summedFile.overwrite 78 [1, 0, 7, 1]).length = summedFile.length :=
    Bytes.length_overwrite (by rw [size]; decide)
  have outside : ∀ index < 88, index < 78 ∨ 82 ≤ index →
      (summedFile.overwrite 78 [1, 0, 7, 1])[index]? = summedFile[index]? := by
    decide +kernel
  have differs : summedFile.overwrite 78 [1, 0, 7, 1] ≠ summedFile := by decide +kernel
  obtain ⟨file, opened, version⟩ := (map_ok_iff _ _ _).mp versionRead
  have header : file.layout.headerSize = 72 := by
    rw [File.layout, version]
    rfl
  have window : ∀ index, (summedFile.overwrite 78 [1, 0, 7, 1])[index]? ≠ summedFile[index]? →
      file.layout.headerSize ≤ index ∧ 78 ≤ index ∧ index < 78 + 4 := by
    intro index apart
    have below : index < 88 := by
      by_contra past
      rw [List.getElem?_eq_none (by omega), List.getElem?_eq_none (by omega)] at apart
      exact apart rfl
    have inside := mt (outside index below) apart
    omega
  exact ⟨_, file, opened, version, rfl, same, differs, window,
    checksum_detects_burst summedFile _ file opened (.inr version) same differs 78 window⟩

end Indexed

end ExecCounts
