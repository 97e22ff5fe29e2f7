import ExecCounts.Proofs.Reading
import ExecCounts.Proofs.Taken

set_option autoImplicit false

namespace ExecCounts

/-- The second outcome may differ from a success only by a failure that can be put down to the
missing end. -/
def Degrades {α β : Type} (blame : FailureKind → Prop) (whole : Except Failure α)
    (short : Except Failure β) (agree : α → β → Prop) : Prop :=
  ∀ value, whole = .ok value → (∃ failure, short = .error failure ∧ blame failure.kind) ∨
    ∃ other, short = .ok other ∧ agree value other

namespace Degrades

variable {α α' β β' : Type} {blame : FailureKind → Prop} {agree : α → α' → Prop}
  {agreeNext : β → β' → Prop}

theorem of_ok {whole : Except Failure α} {short : Except Failure α'}
    (outcome : ∀ value, whole = .ok value → ∃ other, short = .ok other ∧ agree value other) :
    Degrades blame whole short agree :=
  fun value ran => .inr (outcome value ran)

theorem of_blame {whole : Except Failure α} {short : Except Failure α'}
    (blamed : ∀ failure, short = .error failure → blame failure.kind)
    (outcome : ∀ value other, whole = .ok value → short = .ok other → agree value other) :
    Degrades blame whole short agree := by
  intro value ran
  cases result : short with
  | error failure => exact .inl ⟨failure, rfl, blamed failure result⟩
  | ok other => exact .inr ⟨other, rfl, outcome value other ran result⟩

theorem of_value {value : α} {other : α'} (same : agree value other) :
    Degrades blame (pure value) (pure other) agree :=
  of_ok fun _ ran => ⟨other, rfl, by cases ran; exact same⟩

theorem bind {whole : Except Failure α} {short : Except Failure α'} {next : α → Except Failure β}
    {nextShort : α' → Except Failure β'} (first : Degrades blame whole short agree)
    (second : ∀ value other, agree value other →
      Degrades blame (next value) (nextShort other) agreeNext) :
    Degrades blame (whole >>= next) (short >>= nextShort) agreeNext := by
  intro result ran
  obtain ⟨value, firstRan, nextRan⟩ := (bind_ok_iff _ _ _).mp ran
  obtain ⟨failure, failed, blamed⟩ | ⟨other, shortRan, same⟩ := first value firstRan
  · exact .inl ⟨failure, by rw [failed]; rfl, blamed⟩
  · rw [shortRan]
    exact second value other same result nextRan

theorem map_error {whole : Except Failure α} {short : Except Failure α'}
    {context contextShort : Failure → Failure} (kept : ∀ failure, (contextShort failure).kind = failure.kind)
    (degrades : Degrades blame whole short agree) :
    Degrades blame (whole.mapError context) (short.mapError contextShort) agree := by
  intro value ran
  obtain ⟨failure, failed, blamed⟩ | ⟨other, shortRan, same⟩ :=
    degrades value ((map_error_ok_iff _ _ _).mp ran)
  · exact .inl ⟨contextShort failure, by rw [failed]; rfl, by rw [kept]; exact blamed⟩
  · exact .inr ⟨other, by rw [shortRan]; rfl, same⟩

end Degrades

structure Cursor.Shortened (missing : Bytes) (whole short : Cursor) : Prop where
  data : whole.data = short.data ++ missing
  order : short.order = whole.order
  offset : short.offset = whole.offset

theorem Cursor.shortened_little (short missing : Bytes) :
    Shortened missing (little (short ++ missing)) (little short) :=
  ⟨rfl, rfl, rfl⟩

theorem Cursor.Shortened.rest {missing : Bytes} {whole short : Cursor}
    (shortened : Shortened missing whole short) : whole.rest = short.rest ++ missing := by
  rw [short.rest_eq, whole.rest_eq, shortened.data, ← shortened.offset,
    List.drop_append_of_le_length short.offset_le]

theorem Cursor.Shortened.same_data {missing : Bytes} {whole short after shortAfter : Cursor}
    (shortened : Shortened missing whole short) (shortenedOn : Shortened missing after shortAfter)
    (same : after.data = whole.data) : shortAfter.data = short.data := by
  have joined : shortAfter.data ++ missing = short.data ++ missing := by
    rw [← shortenedOn.data, same, shortened.data]
  exact List.append_cancel_right joined

namespace Read

variable {α α' β β' : Type} {blame : FailureKind → Prop} {missing : Bytes} {agree : α → α' → Prop}
  {agreeNext : β → β' → Prop}

def Degrades (blame : FailureKind → Prop) (missing : Bytes) (whole : Read α) (short : Read α')
    (agree : α → α' → Prop) : Prop :=
  ∀ cursor shortCursor : Cursor, Cursor.Shortened missing cursor shortCursor → ∀ value after,
    whole cursor = .ok value after →
      (∃ failure left, short shortCursor = .error failure left ∧ blame failure.kind) ∨
        ∃ other shortAfter, short shortCursor = .ok other shortAfter ∧ agree value other ∧
          Cursor.Shortened missing after shortAfter

def Survives (blame : FailureKind → Prop) (missing : Bytes) (read : Read α) : Prop :=
  Degrades blame missing read read Eq

theorem pure_degrades {value : α} {other : α'} (same : agree value other) :
    Degrades blame missing (pure value) (pure other) agree := by
  intro cursor shortCursor shortened result after ran
  cases ran
  exact .inr ⟨other, shortCursor, rfl, same, shortened⟩

theorem throw_degrades (failure : Failure) (short : Read α') :
    Degrades blame missing (throw failure) short agree := by
  intro cursor shortCursor _ result after ran
  cases ran

theorem bind_degrades {whole : Read α} {short : Read α'} {next : α → Read β}
    {nextShort : α' → Read β'} (first : Degrades blame missing whole short agree)
    (second : ∀ value other, agree value other →
      Degrades blame missing (next value) (nextShort other) agreeNext) :
    Degrades blame missing (whole >>= next) (short >>= nextShort) agreeNext := by
  intro cursor shortCursor shortened result after ran
  obtain ⟨value, middle, firstRan, ran⟩ := (run_bind_ok_iff _ _ _ _ _).mp ran
  obtain ⟨failure, left, failed, blamed⟩ | ⟨other, shortMiddle, shortRan, same, shortenedOn⟩ :=
    first cursor shortCursor shortened value middle firstRan
  · exact .inl ⟨failure, left, (run_bind_error_iff _ _ _ _ _).mpr (.inl failed), blamed⟩
  · rw [run_bind_of_ok shortRan]
    exact second value other same middle shortMiddle shortenedOn result after ran

theorem bind_survives {first : Read α} {next : α → Read β} (head : Survives blame missing first)
    (tail : ∀ value, Survives blame missing (next value)) : Survives blame missing (first >>= next) :=
  bind_degrades head fun value _ same => same ▸ tail value

theorem map_survives {read : Read α} (f : α → β) (survives : Survives blame missing read) :
    Survives blame missing (f <$> read) := by
  rw [map_eq_pure_bind]
  exact bind_survives survives fun _ => pure_degrades rfl

theorem check_degrades {condition : Prop} [Decidable condition] {failure failureShort : Failure}
    {next : Unit → Read β} {nextShort : Unit → Read β'}
    {whole : Read β} {short : Read β'} (passed : ¬ condition → Degrades blame missing whole short agreeNext) :
    Degrades blame missing (if condition then throw failure >>= next else whole)
      (if condition then throw failureShort >>= nextShort else short) agreeNext := by
  by_cases failed : condition
  · rw [if_pos failed, if_pos failed]
    intro cursor shortCursor _ result after ran
    cases ran
  · rw [if_neg failed, if_neg failed]
    exact passed failed

theorem get_degrades : Degrades blame missing get get (Cursor.Shortened missing) := by
  intro cursor shortCursor shortened value after ran
  cases ran
  exact .inr ⟨shortCursor, shortCursor, rfl, shortened, shortened⟩

theorem position_survives : Survives blame missing position :=
  bind_degrades get_degrades fun _ _ shortened => pure_degrades shortened.offset.symm

theorem of_except_degrades {whole : Except Failure α} {short : Except Failure α'}
    (outcome : ExecCounts.Degrades blame whole short agree) :
    Degrades blame missing (ofExcept whole) (ofExcept short) agree := by
  intro cursor shortCursor shortened value after ran
  cases result : whole with
  | error failure =>
      rw [result] at ran
      cases ran
  | ok found =>
      rw [result] at ran
      cases ran
      obtain ⟨failure, failed, blamed⟩ | ⟨other, shortRan, same⟩ := outcome value result
      · exact .inl ⟨failure, shortCursor, by rw [failed]; rfl, blamed⟩
      · exact .inr ⟨other, shortCursor, by rw [shortRan]; rfl, same, shortened⟩

theorem of_except_survives (outcome : Except Failure α) : Survives blame missing (ofExcept outcome) :=
  of_except_degrades (Degrades.of_ok fun value ran => ⟨value, ran, rfl⟩)

theorem of_check_degrades {whole short : Except Failure Unit}
    (blamed : ∀ failure, short = .error failure → blame failure.kind) :
    Degrades blame missing (ofExcept whole) (ofExcept short) fun _ _ => short = .ok () :=
  of_except_degrades (Degrades.of_blame blamed fun _ _ _ passed => passed)

theorem with_order_survives (order : ByteOrder) :
    Survives blame missing (modify (·.withOrder order)) := by
  intro cursor shortCursor shortened value after ran
  cases ran
  exact .inr ⟨(), shortCursor.withOrder order, rfl, rfl, shortened.data, rfl, shortened.offset⟩

theorem order_survives {next : ByteOrder → Read α} (each : ∀ order, Survives blame missing (next order)) :
    Survives blame missing (get >>= fun cursor => next cursor.order) := by
  apply bind_degrades get_degrades
  intro cursor shortCursor shortened
  rw [shortened.order]
  exact each cursor.order

section Truncation

variable (truncation : blame .truncatedInput)

include truncation

theorem bytes_survives (n : Nat) : Survives blame missing (Read.bytes n) := by
  intro cursor shortCursor shortened value after ran
  have rest := shortened.rest
  by_cases whole : (shortCursor.rest.take n).length = n
  · have enough : n ≤ shortCursor.rest.length := by
      rw [List.length_take] at whole
      omega
    have same : cursor.rest.take n = shortCursor.rest.take n := by
      rw [rest, List.take_append_of_le_length enough]
    rw [Read.bytes, dif_pos (by rw [same]; exact whole)] at ran
    cases ran
    refine .inr ⟨_, shortCursor.advance n enough, by rw [Read.bytes, dif_pos whole], same,
      shortened.data, shortened.order, ?_⟩
    exact congrArg (· + n) shortened.offset
  · exact .inl ⟨_, _, by rw [Read.bytes, dif_neg whole], truncation⟩

theorem skip_survives (n : Nat) : Survives blame missing (skip n) :=
  bind_survives (bytes_survives truncation n) fun _ => pure_degrades rfl

theorem align_survives (width : Nat) : Survives blame missing (align width) :=
  bind_survives position_survives fun _ => skip_survives truncation _

theorem seek_survives (offset : Nat) : Survives blame missing (seek offset) := by
  intro cursor shortCursor shortened value after ran
  by_cases within : offset ≤ shortCursor.data.length
  · have withinWhole : offset ≤ cursor.data.length := by
      rw [shortened.data, List.length_append]
      omega
    rw [seek, dif_pos withinWhole] at ran
    cases ran
    exact .inr ⟨(), shortCursor.move offset within, by rw [seek, dif_pos within], rfl,
      shortened.data, shortened.order, rfl⟩
  · exact .inl ⟨_, _, by rw [seek, dif_neg within], truncation⟩

theorem number_survives (width : Nat) : Survives blame missing (number width) :=
  order_survives fun _ => bind_survives (bytes_survives truncation width) fun _ => pure_degrades rfl

theorem u32_survives : Survives blame missing u32 := map_survives _ (number_survives truncation 4)

theorem u64_survives : Survives blame missing u64 := map_survives _ (number_survives truncation 8)

theorem uint_survives (width : Width) : Survives blame missing (uint width) :=
  map_survives _ (number_survives truncation width.size)

theorem uleb_survives : Survives blame missing uleb := by
  intro cursor shortCursor shortened value after ran
  cases decoded : Leb128.decode cursor.rest with
  | ok read =>
      rw [uleb_decoded decoded] at ran
      cases ran
      have cut := decoded
      rw [shortened.rest] at cut
      rcases Leb128.decode_cut _ _ _ _ cut with truncated | same
      · exact .inl ⟨_, _, uleb_truncated truncated, truncation⟩
      · exact .inr ⟨_, _, uleb_decoded same, rfl, shortened.data, shortened.order,
          congrArg (· + read.2) shortened.offset⟩
  | error fault =>
      obtain ⟨used, other, -⟩ := uleb_ran ran
      rw [← cursor.rest_eq, decoded] at other
      cases other

theorem uleb32_survives : Survives blame missing uleb32 := by
  refine bind_survives position_survives fun start => ?_
  refine bind_survives (uleb_survives truncation) fun word => ?_
  split
  · exact pure_degrades rfl
  · exact throw_degrades _ _

theorem text_survives (n : Nat) : Survives blame missing (text n) := by
  refine bind_survives position_survives fun start => ?_
  refine bind_survives (bytes_survives truncation n) fun taken => ?_
  split
  · exact pure_degrades rfl
  · exact throw_degrades _ _

theorem uleb_text_survives : Survives blame missing ulebText :=
  bind_survives (uleb_survives truncation) fun length => text_survives truncation length.toNat

end Truncation

theorem times_survives {action : Read α} (survives : Survives blame missing action) (count : Nat) :
    Survives blame missing (times count action) := by
  induction count with
  | zero => exact pure_degrades rfl
  | succ count ih =>
      exact bind_survives survives fun _ => bind_survives ih fun _ => pure_degrades rfl

theorem read_degrades {whole : Read α} {short : Read α'} (degrades : Degrades blame missing whole short agree)
    {cursor shortCursor : Cursor} (shortened : Cursor.Shortened missing cursor shortCursor) :
    ExecCounts.Degrades blame (cursor.read whole) (shortCursor.read short) agree := by
  intro value ran
  cases wholeRan : whole cursor with
  | error failure left =>
      rw [Cursor.read, wholeRan] at ran
      cases ran
  | ok found after =>
      rw [Cursor.read, wholeRan] at ran
      cases ran
      obtain ⟨failure, left, failed, blamed⟩ | ⟨other, shortAfter, shortRan, same, -⟩ :=
        degrades cursor shortCursor shortened value after wholeRan
      · exact .inl ⟨failure, by rw [Cursor.read, failed], blamed⟩
      · exact .inr ⟨other, by rw [Cursor.read, shortRan], same⟩

end Read

end ExecCounts
