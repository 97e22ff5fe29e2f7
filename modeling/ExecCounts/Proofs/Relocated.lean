import ExecCounts.Proofs.Policy
import ExecCounts.Proofs.Reading

set_option autoImplicit false

namespace ExecCounts

def Failure.further (distance : Nat) (failure : Failure) : Failure :=
  { failure with offset := failure.offset.map (· + distance) }

theorem Failure.further_zero (failure : Failure) : failure.further 0 = failure := by
  rw [further, show (fun offset : Nat => offset + 0) = id from rfl, Option.map_id]
  rfl

/-- Two outcomes, the second for data that stands some bytes further on. -/
inductive Further {α β : Type} (distance : Nat) (agree : α → β → Prop) :
    Except Failure α → Except Failure β → Prop where
  | ok {value : α} {other : β} (same : agree value other) :
      Further distance agree (.ok value) (.ok other)
  | error (failure : Failure) :
      Further distance agree (.error failure) (.error (failure.further distance))

theorem Further.same {α : Type} {first second : Except Failure α}
    (further : Further 0 Eq first second) : second = first := by
  cases further with
  | ok same => rw [same]
  | error failure => rw [failure.further_zero]

structure Cursor.Relocated (distance : Nat) (orders : ByteOrder → ByteOrder → Prop)
    (cursor shifted : Cursor) : Prop where
  rest : shifted.rest = cursor.rest
  offset : shifted.offset = cursor.offset + distance
  order : orders cursor.order shifted.order

namespace Cursor.Relocated

variable {distance : Nat} {orders : ByteOrder → ByteOrder → Prop} {cursor shifted : Cursor}
  (relocated : cursor.Relocated distance orders shifted)

include relocated

theorem short (needed : Nat) : shifted.short needed = (cursor.short needed).further distance := by
  rw [Cursor.short, Cursor.short, Cursor.remaining, Cursor.remaining, relocated.rest, relocated.offset]
  rfl

theorem advance (n : Nat) (within : n ≤ cursor.rest.length) (withinShifted : n ≤ shifted.rest.length) :
    (cursor.advance n within).Relocated distance orders (shifted.advance n withinShifted) where
  rest := congrArg (List.drop n) relocated.rest
  offset := by
    change shifted.offset + n = cursor.offset + n + distance
    rw [relocated.offset, Nat.add_right_comm]
  order := relocated.order

theorem length : shifted.data.length = cursor.data.length + distance := by
  have own := cursor.remaining_eq
  have same := shifted.remaining_eq
  rw [Cursor.remaining, relocated.rest, relocated.offset] at same
  rw [Cursor.remaining] at own
  have within := cursor.offset_le
  have withinShifted := shifted.offset_le
  rw [relocated.offset] at withinShifted
  omega

end Cursor.Relocated

namespace Read

variable {α α' β β' : Type} {distance : Nat} {before between after : ByteOrder → ByteOrder → Prop}
  {agree : α → α' → Prop} {agreeNext : β → β' → Prop}

def Follows (distance : Nat) (before after : ByteOrder → ByteOrder → Prop) (value : Read α)
    (other : Read α') (agree : α → α' → Prop) : Prop :=
  ∀ cursor shifted : Cursor, cursor.Relocated distance before shifted →
    (∃ failure left leftShifted, value cursor = .error failure left ∧
      other shifted = .error (failure.further distance) leftShifted) ∨
    ∃ result left resultShifted leftShifted, value cursor = .ok result left ∧
      other shifted = .ok resultShifted leftShifted ∧ agree result resultShifted ∧
        left.Relocated distance after leftShifted

def Portable (distance : Nat) (orders : ByteOrder → ByteOrder → Prop) (value : Read α) : Prop :=
  Follows distance orders orders value value Eq

theorem pure_follows {value : α} {other : α'} (same : agree value other) :
    Follows distance before before (pure value) (pure other) agree :=
  fun cursor shifted relocated => .inr ⟨value, cursor, other, shifted, rfl, rfl, same, relocated⟩

theorem throw_follows {failure moved : Failure} (shifted : moved = failure.further distance) :
    Follows distance before after (throw failure) (throw moved) agree :=
  fun cursor other _ => .inl ⟨failure, cursor, other, rfl, by rw [shifted]; rfl⟩

theorem bind_follows {first : Read α} {firstShifted : Read α'} {next : α → Read β}
    {nextShifted : α' → Read β'} (head : Follows distance before between first firstShifted agree)
    (tail : ∀ value other, agree value other →
      Follows distance between after (next value) (nextShifted other) agreeNext) :
    Follows distance before after (first >>= next) (firstShifted >>= nextShifted) agreeNext := by
  intro cursor shifted relocated
  obtain ⟨failure, left, leftShifted, failed, failedShifted⟩ |
    ⟨value, middle, other, middleShifted, ran, ranShifted, same, onward⟩ :=
    head cursor shifted relocated
  · exact .inl ⟨failure, left, leftShifted, (run_bind_error_iff _ _ _ _ _).mpr (.inl failed),
      (run_bind_error_iff _ _ _ _ _).mpr (.inl failedShifted)⟩
  · rw [run_bind_of_ok ran, run_bind_of_ok ranShifted]
    exact tail value other same middle middleShifted onward

theorem bind_follows_same {first : Read α} {next nextShifted : α → Read β} {agreeNext : β → β → Prop}
    (head : Follows distance before between first first Eq)
    (tail : ∀ value, Follows distance between after (next value) (nextShifted value) agreeNext) :
    Follows distance before after (first >>= next) (first >>= nextShifted) agreeNext :=
  bind_follows head fun value _ same => same ▸ tail value

theorem map_portable {value : Read α} (f : α → β) (portable : Portable distance before value) :
    Portable distance before (f <$> value) := by
  rw [map_eq_pure_bind]
  exact bind_follows_same portable fun _ => pure_follows rfl

theorem check_follows {condition : Prop} [Decidable condition] {failure moved : Failure}
    {next : Unit → Read β} {nextShifted : Unit → Read β'} {passed : Read β} {passedShifted : Read β'}
    (shifted : moved = failure.further distance)
    (others : Follows distance before after passed passedShifted agreeNext) :
    Follows distance before after (if condition then throw failure >>= next else passed)
      (if condition then throw moved >>= nextShifted else passedShifted) agreeNext := by
  by_cases failed : condition
  · rw [if_pos failed, if_pos failed]
    exact fun cursor other _ => .inl ⟨failure, cursor, other, rfl, by rw [shifted]; rfl⟩
  · rw [if_neg failed, if_neg failed]
    exact others

theorem of_except_follows {computed : Except Failure α} {moved : Except Failure α'}
    (outcome : Further distance agree computed moved) :
    Follows distance before before (ofExcept computed) (ofExcept moved) agree := by
  cases outcome with
  | ok same => exact pure_follows same
  | error failure => exact throw_follows rfl

theorem placed_follows (computed : Except Failure α) {place moved : Nat}
    (shifted : moved = place + distance) :
    Follows distance before before (ofExcept (computed.mapError (·.atOffset place)))
      (ofExcept (computed.mapError (·.atOffset moved))) Eq := by
  rw [shifted]
  refine of_except_follows ?_
  cases computed with
  | ok value => exact .ok rfl
  | error failure => exact .error (failure.atOffset place)

theorem get_follows : Follows distance before before get get (Cursor.Relocated distance before) :=
  fun cursor shifted relocated =>
    .inr ⟨cursor, cursor, shifted, shifted, rfl, rfl, relocated, relocated⟩

theorem position_follows : Follows distance before before position position
    fun start moved => moved = start + distance :=
  bind_follows get_follows fun _ _ relocated => pure_follows relocated.offset

theorem at_end_portable : Portable distance before atEnd :=
  bind_follows get_follows fun _ _ relocated =>
    pure_follows (congrArg List.isEmpty relocated.rest.symm)

theorem with_order_follows (order : ByteOrder) : Follows distance before Eq
    (modify (·.withOrder order)) (modify (·.withOrder order)) (Eq : Unit → Unit → Prop) :=
  fun cursor shifted relocated => .inr ⟨(), cursor.withOrder order, (), shifted.withOrder order, rfl,
    rfl, rfl, relocated.rest, relocated.offset, rfl⟩

theorem bytes_portable (n : Nat) : Portable distance before (bytes n) := by
  intro cursor shifted relocated
  by_cases whole : (cursor.rest.take n).length = n
  · have wholeShifted : (shifted.rest.take n).length = n := by rw [relocated.rest, whole]
    exact .inr ⟨_, _, _, _, by rw [bytes, dif_pos whole], by rw [bytes, dif_pos wholeShifted],
      congrArg (List.take n) relocated.rest.symm, relocated.advance n _ _⟩
  · have cut : ¬ (shifted.rest.take n).length = n := by rwa [relocated.rest]
    exact .inl ⟨_, _, _, by rw [bytes, dif_neg whole],
      by rw [bytes, dif_neg cut, relocated.short]⟩

theorem skip_portable (n : Nat) : Portable distance before (skip n) :=
  bind_follows_same (bytes_portable n) fun _ => pure_follows rfl

theorem align_portable (width : Nat) (aligned : distance % width = 0) :
    Portable distance before (align width) := by
  refine bind_follows position_follows fun start moved same => ?_
  have padded : padding moved width = padding start width := by
    rw [padding, padding, same, Nat.add_mod, aligned, Nat.add_zero, Nat.mod_mod]
  rw [padded]
  exact skip_portable _

theorem number_portable (width : Nat) : Portable distance Eq (number width) := by
  refine bind_follows get_follows fun cursor shifted relocated => ?_
  rw [relocated.order]
  exact bind_follows_same (bytes_portable width) fun _ => pure_follows rfl

theorem u32_portable : Portable distance Eq u32 := map_portable _ (number_portable 4)

theorem u64_portable : Portable distance Eq u64 := map_portable _ (number_portable 8)

theorem uleb_refused (fault : Leb128.Fault) : ∃ failure : Failure, ∀ cursor : Cursor,
    Leb128.decode cursor.rest = .error fault →
      uleb cursor = .error (failure.atOffset cursor.offset) cursor := by
  cases fault with
  | truncated =>
      exact ⟨{ kind := .truncatedInput }, fun cursor decoded => uleb_truncated decoded⟩
  | overflow =>
      refine ⟨.because .invalidEncoding "LEB128 value exceeds 64 bits", fun cursor decoded => ?_⟩
      rw [uleb]
      split <;> simp_all

theorem uleb_portable : Portable distance before uleb := by
  intro cursor shifted relocated
  cases decoded : Leb128.decode cursor.rest with
  | ok read =>
      have decodedShifted := decoded
      rw [← relocated.rest] at decodedShifted
      exact .inr ⟨_, _, _, _, uleb_decoded decoded, uleb_decoded decodedShifted, rfl,
        relocated.advance read.2 _ _⟩
  | error fault =>
      obtain ⟨failure, refused⟩ := uleb_refused fault
      have refusedShifted := refused shifted (by rw [relocated.rest, decoded])
      rw [relocated.offset] at refusedShifted
      exact .inl ⟨_, _, _, refused cursor decoded, refusedShifted⟩

theorem uleb32_portable : Portable distance before uleb32 := by
  refine bind_follows position_follows fun start moved placed => ?_
  refine bind_follows_same uleb_portable fun value => ?_
  split
  · exact pure_follows rfl
  · exact throw_follows (by rw [placed]; rfl)

theorem text_portable (n : Nat) : Portable distance before (text n) := by
  refine bind_follows position_follows fun start moved placed => ?_
  refine bind_follows_same (bytes_portable n) fun taken => ?_
  split
  · exact pure_follows rfl
  · exact throw_follows (by rw [placed]; rfl)

theorem uleb_text_portable : Portable distance before ulebText :=
  bind_follows_same uleb_portable fun length => text_portable length.toNat

theorem times_portable {action : Read α} (portable : Portable distance before action) (count : Nat) :
    Portable distance before (times count action) := by
  induction count with
  | zero => exact pure_follows rfl
  | succ count ih =>
      exact bind_follows_same portable fun _ => bind_follows_same ih fun _ => pure_follows rfl

section InPlace

theorem throw_in_place (failure : Failure) : Portable 0 before (throw failure : Read α) :=
  throw_follows failure.further_zero.symm

theorem check_in_place {condition : Prop} [Decidable condition] {failure : Failure}
    {next : Unit → Read α} {passed : Read α} (others : Portable 0 before passed) :
    Portable 0 before (if condition then throw failure >>= next else passed) :=
  check_follows failure.further_zero.symm others

theorem of_except_in_place (computed : Except Failure α) : Portable 0 before (ofExcept computed) := by
  cases computed with
  | ok value => exact pure_follows rfl
  | error failure => exact throw_in_place failure

theorem position_in_place : Portable 0 before position :=
  bind_follows get_follows fun _ _ relocated => pure_follows relocated.offset.symm

end InPlace

theorem read_follows {value : Read α} {other : Read α'}
    (follows : Follows distance before after value other agree) {cursor shifted : Cursor}
    (relocated : cursor.Relocated distance before shifted) :
    Further distance agree (cursor.read value) (shifted.read other) := by
  rw [Cursor.read, Cursor.read]
  obtain ⟨failure, left, leftShifted, failed, failedShifted⟩ |
    ⟨result, left, resultShifted, leftShifted, ran, ranShifted, same, -⟩ :=
    follows cursor shifted relocated
  · rw [failed, failedShifted]
    exact .error failure
  · rw [ran, ranShifted]
    exact .ok same

end Read

def Skipped.Alike (entry other : Skipped) : Prop :=
  other.function = entry.function ∧ other.kind = entry.kind

namespace Transcript

variable {α β γ β' γ' : Type} {distance : Nat} {agree : β → β' → Prop} {agreeNext : γ → γ' → Prop}

structure Follows (distance : Nat) (agree : β → β' → Prop) (own : Transcript α β)
    (moved : Transcript α β') : Prop where
  entries : List.Forall₂ (Further distance Eq) own.entries moved.entries
  outcome : Further distance agree own.outcome moved.outcome

theorem done_follows {value : β} {other : β'} (same : agree value other) :
    Follows distance agree (done value : Transcript α β) (done other) :=
  ⟨.nil, .ok same⟩

theorem stop_follows (failure : Failure) :
    Follows distance agree (stop failure : Transcript α β) (stop (failure.further distance)) :=
  ⟨.nil, .error failure⟩

theorem cons_follows {entry moved : Except Failure α} {rest : Transcript α β}
    {restMoved : Transcript α β'} (first : Further distance Eq entry moved)
    (others : Follows distance agree rest restMoved) :
    Follows distance agree (cons entry rest) (cons moved restMoved) :=
  ⟨.cons first others.entries, others.outcome⟩

theorem and_then_follows {first : Transcript α β} {firstMoved : Transcript α β'}
    {next : β → Transcript α γ} {nextMoved : β' → Transcript α γ'}
    (head : Follows distance agree first firstMoved)
    (tail : ∀ value other, first.outcome = .ok value → agree value other →
      Follows distance agreeNext (next value) (nextMoved other)) :
    Follows distance agreeNext (first.andThen next) (firstMoved.andThen nextMoved) := by
  obtain ⟨entries, outcome⟩ := head
  rw [andThen, andThen]
  generalize moved : firstMoved.outcome = outcomeMoved at outcome
  cases ended : first.outcome with
  | error failure =>
      rw [ended] at outcome
      cases outcome
      exact ⟨entries, .error failure⟩
  | ok value =>
      rw [ended] at outcome
      cases outcome with
      | ok same =>
          obtain ⟨later, laterOutcome⟩ := tail value _ ended same
          exact ⟨List.rel_append entries later, laterOutcome⟩

section Entries

variable {entries moved : List (Except Failure α)} (outcome : Except Failure β)
  (outcomeMoved : Except Failure β')

theorem entries_same (each : List.Forall₂ (Further 0 Eq) entries moved) : moved = entries := by
  induction each with
  | nil => rfl
  | cons own _ ih => rw [own.same, ih]

theorem values_follow (each : List.Forall₂ (Further distance Eq) entries moved) :
    values ⟨moved, outcomeMoved⟩ = values ⟨entries, outcome⟩ := by
  induction each with
  | nil => rfl
  | cons own _ ih =>
      cases own with
      | ok same => exact congr (congrArg List.cons same.symm) ih
      | error failure => exact ih

theorem failures_follow (each : List.Forall₂ (Further distance Eq) entries moved) :
    failures ⟨moved, outcomeMoved⟩ =
      (failures ⟨entries, outcome⟩).map (Failure.further distance) := by
  induction each with
  | nil => rfl
  | cons own _ ih =>
      cases own with
      | ok same => exact ih
      | error failure => exact congrArg (failure.further distance :: ·) ih

end Entries

theorem Follows.same {own moved : Transcript α β} (follows : Follows 0 Eq own moved) : moved = own := by
  obtain ⟨entries, outcome⟩ := follows
  cases own
  cases moved
  exact congr (congrArg Transcript.mk (entries_same entries)) outcome.same

theorem settle_follows (policy : Policy) {own : Transcript α β} {moved : Transcript α β'}
    (follows : Follows distance agree own moved) :
    Further distance (fun found other => other.1 = found.1 ∧
      List.Forall₂ Skipped.Alike found.2 other.2) (own.settle policy) (moved.settle policy) := by
  obtain ⟨entries, outcome⟩ := own
  obtain ⟨entriesMoved, outcomeMoved⟩ := moved
  have values := values_follow outcome outcomeMoved follows.entries
  have failures := failures_follow outcome outcomeMoved follows.entries
  have ended := follows.outcome
  cases policy with
  | strict =>
      rw [settle_strict, settle_strict, values, failures]
      cases Transcript.failures ⟨entries, outcome⟩ with
      | cons failure others => exact .error failure
      | nil =>
          cases ended with
          | ok same => exact .ok ⟨rfl, .nil⟩
          | error failure => exact .error failure
  | bestEffort =>
      rw [settle_best_effort, settle_best_effort, values, failures]
      cases ended with
      | error failure => exact .error failure
      | ok same =>
          refine .ok ⟨rfl, ?_⟩
          rw [List.map_map, List.forall₂_map_left_iff, List.forall₂_map_right_iff]
          exact List.forall₂_same.mpr fun failure _ => ⟨rfl, rfl⟩

end Transcript

end ExecCounts
