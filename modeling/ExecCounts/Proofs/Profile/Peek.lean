import ExecCounts.Profile.Detect
import ExecCounts.Proofs.Indexed.Declared
import ExecCounts.Proofs.Raw.Declared

set_option autoImplicit false

namespace ExecCounts

namespace Format

theorem detected_raw (data : Bytes) (detected : detect data = some .raw) :
    ∃ machine, Raw.Machine.detect? data = some machine := by
  rw [detect] at detected
  split at detected
  · rename_i raw
    exact Option.isSome_iff_exists.mp raw
  · split at detected
    · cases detected
    · split at detected <;> cases detected

theorem detected_indexed (data : Bytes) (detected : detect data = some .indexed) :
    Raw.Machine.detect? data = none ∧ data.take 8 = le64 Indexed.magic := by
  rw [detect] at detected
  split at detected
  · cases detected
  · rename_i other
    split at detected
    · rename_i indexed
      exact ⟨Option.not_isSome_iff_eq_none.mp other, eq_of_beq indexed⟩
    · split at detected <;> cases detected

end Format

def Read.FailsWith {α β : Type} (short : Read α) (long : Read β) (cursor : Cursor) : Prop :=
  ∀ failure after, short cursor = .error failure after → long cursor = .error failure after

namespace Read

variable {α β γ : Type} {cursor : Cursor}

theorem bind_fails_with {first : Read α} {short : α → Read β} {long : α → Read γ}
    (each : ∀ value middle, first cursor = .ok value middle →
      FailsWith (short value) (long value) middle) :
    FailsWith (first >>= short) (first >>= long) cursor := by
  intro failure after failed
  rw [run_bind_error_iff] at failed ⊢
  obtain stopped | ⟨value, middle, ran, failed⟩ := failed
  · exact .inl stopped
  · exact .inr ⟨value, middle, ran, each value middle ran failure after failed⟩

theorem pure_fails_with (value : α) (long : Read β) : FailsWith (pure value) long cursor := by
  intro failure after failed
  cases failed

end Read

namespace Heading

theorem read_binary_ran (format : Format) (order : ByteOrder) (data : Bytes) (heading : Heading)
    (after : Cursor)
    (ran : readBinary format (Cursor.ofBytes data order) = .ok heading after) :
    heading = ⟨format, storedVersion order data, storedVariant order data⟩ := by
  rw [readBinary] at ran
  obtain ⟨⟨⟩, first, skipRan, ran⟩ := (Read.bind_ran_iff _ _ _).mp ran
  obtain ⟨word, second, wordRan, ran⟩ := (Read.bind_ran_iff _ _ _).mp ran
  obtain ⟨version, third, versionRan, ran⟩ := (Read.bind_ran_iff _ _ _).mp ran
  obtain ⟨rfl, -⟩ := (Read.pure_ran_iff _ _).mp ran
  have required := ((Read.of_except_ran_iff _ _).mp versionRan).1
  have number : word.toNat = order.numberAt data 8 8 :=
    (Read.u64_ran wordRan).1.trans ((Read.skip_ran skipRan).number_at 8)
  have named : storedVersion order data = some version :=
    stored_version_eq _ _ word _ number ((map_error_ok_iff _ _ _).mp required)
  rw [named, ← stored_variant_eq _ _ word number]
  rfl

structure Announces (heading : Except Failure Heading) (read : Except Failure Profile) : Prop where
  agrees : ∀ profile, read = .ok profile → heading = .ok profile.heading
  fails : ∀ failure, heading = .error failure → read = .error failure

theorem bind_announces {α : Type} (first : Except Failure α) (next : α → Except Failure Heading)
    (other : α → Except Failure Profile) (each : ∀ value, Announces (next value) (other value)) :
    Announces (first >>= next) (first >>= other) := by
  cases first with
  | ok value => exact each value
  | error failure => exact ⟨nofun, fun later same => by cases same; rfl⟩

theorem pure_announces (heading : Heading) (read : Except Failure Profile)
    (agrees : ∀ profile, read = .ok profile → profile.heading = heading) :
    Announces (pure heading) read :=
  ⟨fun profile ok => congrArg Except.ok (agrees profile ok).symm, nofun⟩

theorem binary_announces {α : Type} (format : Format) (order : ByteOrder) (data : Bytes)
    (opening : Read α) (next : α → Except Failure Profile)
    (fails : (readBinary format).FailsWith opening (Cursor.ofBytes data order))
    (agrees : ∀ opened after profile, opening (Cursor.ofBytes data order) = .ok opened after →
      next opened = .ok profile →
        profile.heading = ⟨format, storedVersion order data, storedVariant order data⟩) :
    Announces ((Cursor.ofBytes data order).read (readBinary format))
      ((Cursor.ofBytes data order).read opening >>= next) := by
  constructor
  · intro profile read
    rw [bind_ok_iff] at read
    obtain ⟨opened, openingOk, read⟩ := read
    obtain ⟨after, ran⟩ := (Read.read_ok_iff _ _).mp openingOk
    rw [agrees opened after profile ran read, Read.read_ok_iff]
    cases headingRan : readBinary format (Cursor.ofBytes data order) with
    | error failure left =>
        cases ran.symm.trans (fails failure left headingRan)
    | ok heading left =>
        rw [read_binary_ran format order data heading left headingRan]
        exact ⟨left, rfl⟩
  · intro failure refused
    rw [Cursor.read] at refused ⊢
    cases headingRan : readBinary format (Cursor.ofBytes data order) with
    | error other left =>
        rw [headingRan] at refused
        cases refused
        rw [fails failure left headingRan]
        rfl
    | ok heading left =>
        rw [headingRan] at refused
        cases refused

end Heading

theorem Raw.read_contents_fails (machine : Machine) (cursor : Cursor) :
    (Heading.readBinary .raw).FailsWith (readContents machine) cursor := by
  rw [Heading.readBinary, readContents]
  apply Read.bind_fails_with
  intro _ first _
  apply Read.bind_fails_with
  intro word second _
  apply Read.bind_fails_with
  intro version third _
  exact Read.pure_fails_with _ _

theorem Raw.parse_announced (policy : Policy) (data : Bytes) (machine : Machine)
    (detected : Machine.detect? data = some machine) :
    Heading.Announces ((Cursor.ofBytes data machine.order).read (Heading.readBinary .raw))
      (parse policy data) := by
  rw [parse, contents, detected]
  apply Heading.binary_announces
  · exact read_contents_fails machine _
  · intro contents after profile opened read
    rw [bind_ok_iff] at read
    obtain ⟨gathered, -, same⟩ := read
    cases (pure_ok_iff _ _).mp same
    obtain ⟨version, variant, -⟩ := read_contents_ran machine data contents after opened
    rw [version, ← variant]
    rfl

theorem Indexed.read_file_fails (data : Bytes) (starts : data.take 8 = le64 magic) :
    (Heading.readBinary .indexed).FailsWith readFile (Cursor.little data) := by
  have split : data = le64 magic ++ data.drop 8 := by rw [← starts, List.take_append_drop]
  obtain ⟨middle, skipRan, skipData, skipOrder, skipOffset⟩ :=
    Read.skip_yields (length_le64 magic) (Cursor.little data) rfl rfl split
  obtain ⟨other, magicRan, magicData, magicOrder, magicOffset⟩ :=
    Read.u64_yields magic (Cursor.little data) rfl rfl split
  have same : other = middle := Cursor.ext_position (magicData.trans skipData.symm)
    (magicOrder.trans skipOrder.symm) (magicOffset.trans skipOffset.symm)
  intro failure after failed
  rw [Heading.readBinary, run_bind_of_ok skipRan] at failed
  rw [readFile, run_bind_of_ok magicRan, same, if_neg (by decide)]
  refine Read.bind_fails_with (fun word second _ => ?_) failure after failed
  refine Read.bind_fails_with (fun version third _ => ?_)
  exact Read.pure_fails_with _ _

theorem Indexed.parse_announced (policy : Policy) (data : Bytes) (starts : data.take 8 = le64 magic) :
    Heading.Announces ((Cursor.little data).read (Heading.readBinary .indexed))
      (parse policy data) := by
  rw [parse, openFile, bind_assoc]
  apply Heading.binary_announces
  · exact read_file_fails data starts
  · intro file after profile opened read
    rw [bind_assoc, bind_ok_iff] at read
    obtain ⟨⟨⟩, -, read⟩ := read
    rw [pure_bind, File.toProfile, bind_ok_iff] at read
    obtain ⟨gathered, -, same⟩ := read
    cases (pure_ok_iff _ _).mp same
    obtain ⟨version, variant, -⟩ := read_file_ran data file after opened
    rw [version, ← variant]
    rfl

theorem TextProfile.parse_announced (policy : Policy) (data : Bytes) :
    Heading.Announces (do return ⟨.text, none, ← variant data⟩) (parse policy data) := by
  rw [variant, parse, transcript]
  simp only [bind_assoc, pure_bind]
  apply Heading.bind_announces
  intro listed
  apply Heading.bind_announces
  intro found
  apply Heading.pure_announces
  intro profile read
  rw [bind_ok_iff] at read
  obtain ⟨gathered, -, same⟩ := read
  cases (pure_ok_iff _ _).mp same
  rfl

theorem peek_announces_read (policy : Policy) (data : Bytes) :
    (∀ profile, Profile.read policy data = .ok profile →
      Heading.peek data = .ok profile.heading) ∧
    (∀ failure, Heading.peek data = .error failure →
      Profile.read policy data = .error failure) := by
  suffices announced : Heading.Announces (Heading.peek data) (Profile.read policy data) from
    ⟨announced.agrees, announced.fails⟩
  rw [Heading.peek, Profile.read]
  cases detected : Format.detect data with
  | none => exact ⟨nofun, fun failure same => by cases same; rfl⟩
  | some format =>
      cases format with
      | text => exact TextProfile.parse_announced policy data
      | raw =>
          obtain ⟨machine, found⟩ := Format.detected_raw data detected
          dsimp only
          rw [found]
          exact Raw.parse_announced policy data machine found
      | indexed =>
          obtain ⟨found, starts⟩ := Format.detected_indexed data detected
          dsimp only
          rw [found]
          exact Indexed.parse_announced policy data starts

def oneLoop : Bytes := Utf8.bytes ":ir\nmain\n7\n1\n3\n"

/-- The beginning of a raw profile of a toolchain that is too new. -/
def futureProfile : Bytes :=
  Raw.Machine.magicBytes ⟨.big, .four⟩ ++ [0, 0, 0, 0, 0, 0, 0, 15]

theorem peek_announces_read_future : ∃ profile failure,
    Profile.read .strict oneLoop = .ok profile ∧ Heading.peek oneLoop = .ok profile.heading ∧
      Heading.peek futureProfile = .error failure ∧
      Profile.read .bestEffort futureProfile = .error failure := by
  have readOk : (Profile.read .strict oneLoop).isOk = true := by decide +kernel
  have refused : (Heading.peek futureProfile).isOk = false := by decide +kernel
  obtain ⟨profile, read⟩ := (is_ok_iff _).mp readOk
  cases peeked : Heading.peek futureProfile with
  | ok heading =>
      rw [peeked] at refused
      cases refused
  | error failure =>
      exact ⟨profile, failure, read, (peek_announces_read .strict oneLoop).1 profile read, rfl,
        (peek_announces_read .bestEffort futureProfile).2 failure peeked⟩

end ExecCounts
