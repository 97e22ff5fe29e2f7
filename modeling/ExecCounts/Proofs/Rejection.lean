import ExecCounts.Proofs.Outcome
import ExecCounts.Record

set_option autoImplicit false

namespace ExecCounts

variable {α β : Type}

/-- A step that succeeds exactly if what it writes fits. -/
structure Writes (fits : Prop) (computed : Except Failure α) : Prop where
  succeeds_iff : (∃ value, computed = .ok value) ↔ fits
  kind : ∀ failure, computed = .error failure → failure.kind = .writeFailed

/-- A writer that fails exactly if there is a defective record, and says which one. -/
structure Rejects (Defective : FunctionRecord → Prop) (computed : Except Failure α) : Prop where
  fails_iff : (∃ failure, computed = .error failure) ↔ ∃ record, Defective record
  blames : ∀ failure, computed = .error failure → failure.kind = .writeFailed ∧
    ∃ record, Defective record ∧ failure.function = some record.id

theorem fails_iff_not_succeeds (computed : Except Failure α) :
    (∃ failure, computed = .error failure) ↔ ¬ ∃ value, computed = .ok value := by
  cases computed <;> simp

namespace Writes

theorem pure (value : α) : Writes True (.ok value : Except Failure α) :=
  ⟨⟨fun _ => trivial, fun _ => ⟨value, rfl⟩⟩, nofun⟩

theorem congr {fits other : Prop} {computed : Except Failure α} (writes : Writes fits computed)
    (same : fits ↔ other) : Writes other computed :=
  ⟨writes.succeeds_iff.trans same, writes.kind⟩

theorem refused (detail : String) :
    Writes False (.error (Failure.because .writeFailed detail) : Except Failure α) := by
  refine ⟨iff_of_false (by rintro ⟨_, ⟨⟩⟩) id, ?_⟩
  rintro failure ⟨⟩
  rfl

theorem check {fits : Prop} [Decidable fits] (value : α) (detail : String) :
    Writes fits (if fits then .ok value else .error (Failure.because .writeFailed detail)) := by
  by_cases fit : fits
  · rw [if_pos fit]
    exact (pure value).congr (iff_of_true trivial fit)
  · rw [if_neg fit]
    exact (refused detail).congr (iff_of_false id fit)

theorem guarded {unfit fits : Prop} [Decidable unfit] (detail : String)
    {next : β → Except Failure α} {computed : Except Failure α} (writes : Writes fits computed) :
    Writes (¬ unfit ∧ fits) (if unfit then throw (Failure.because .writeFailed detail) >>= next
      else computed) := by
  by_cases exceeded : unfit
  · rw [if_pos exceeded]
    exact (refused detail).congr (iff_of_false id fun both => both.1 exceeded)
  · rw [if_neg exceeded]
    exact writes.congr (and_iff_right exceeded).symm

theorem bind {fits fitsToo : Prop} {first : Except Failure α} {next : α → Except Failure β}
    (firstWrites : Writes fits first)
    (nextWrites : ∀ value, first = .ok value → Writes fitsToo (next value)) :
    Writes (fits ∧ fitsToo) (first >>= next) := by
  cases ran : first with
  | error failure =>
      rw [ran] at firstWrites
      have unfit : ¬ fits := fun fit => nomatch firstWrites.succeeds_iff.mpr fit
      refine ⟨iff_of_false (by rintro ⟨_, ⟨⟩⟩) fun both => unfit both.1, ?_⟩
      rintro _ ⟨⟩
      exact firstWrites.kind failure rfl
  | ok value =>
      have fit : fits := firstWrites.succeeds_iff.mp ⟨value, ran⟩
      exact (nextWrites value ran).congr (and_iff_right fit).symm

theorem map {fits : Prop} {computed : Except Failure α} (writes : Writes fits computed)
    (f : α → β) : Writes fits (f <$> computed) := by
  refine ⟨?_, fun failure failed => writes.kind failure ((map_error_iff _ _ _).mp failed)⟩
  rw [← writes.succeeds_iff]
  cases computed <;> simp [Functor.map, Except.map]

theorem returning {fits : Prop} {computed : Except Failure α} (writes : Writes fits computed)
    (f : α → β) : Writes fits (computed >>= fun value => Except.ok (f value)) :=
  (writes.bind fun value _ => pure (f value)).congr (iff_of_eq (and_true fits))

theorem map_m {fits : α → Prop} {f : α → Except Failure β} {values : List α}
    (each : ∀ value ∈ values, Writes (fits value) (f value)) :
    Writes (∀ value ∈ values, fits value) (values.mapM f) := by
  refine ⟨?_, fun failure failed => ?_⟩
  · rw [map_m_succeeds_iff]
    exact forall₂_congr fun value listed => (each value listed).succeeds_iff
  · obtain ⟨value, listed, own⟩ := map_m_error failed
    exact (each value listed).kind failure own

theorem fold_m {fits : β → Prop} {f : α → β → Except Failure α} {values : List β}
    (each : ∀ value ∈ values, ∀ state, Writes (fits value) (f state value)) (start : α) :
    Writes (∀ value ∈ values, fits value) (values.foldlM f start) := by
  induction values generalizing start with
  | nil => exact (pure start).congr (iff_of_true trivial nofun)
  | cons value rest ih =>
      obtain ⟨own, others⟩ := List.forall_mem_cons.mp each
      rw [List.foldlM_cons]
      exact ((own start).bind fun state _ => ih others state).congr List.forall_mem_cons.symm

end Writes

namespace Rejects

variable {Defective Other : FunctionRecord → Prop}

theorem pure (value : α) (sound : ∀ record, ¬ Defective record) :
    Rejects Defective (.ok value : Except Failure α) :=
  ⟨iff_of_false (by rintro ⟨_, ⟨⟩⟩) (not_exists.mpr sound), nofun⟩

theorem blamed {record : FunctionRecord} {failure : Failure} (defective : Defective record)
    (kind : failure.kind = .writeFailed) (named : failure.function = some record.id) :
    Rejects Defective (.error failure : Except Failure α) := by
  refine ⟨iff_of_true ⟨failure, rfl⟩ ⟨record, defective⟩, ?_⟩
  rintro _ ⟨⟩
  exact ⟨kind, record, defective, named⟩

theorem congr {computed : Except Failure α} (rejects : Rejects Defective computed)
    (same : ∀ record, Defective record ↔ Other record) : Rejects Other computed := by
  obtain rfl : Defective = Other := funext fun record => propext (same record)
  exact rejects

theorem bind {first : Except Failure α} {next : α → Except Failure β}
    (firstRejects : Rejects Defective first)
    (nextRejects : ∀ value, first = .ok value → Rejects Other (next value)) :
    Rejects (fun record => Defective record ∨ Other record) (first >>= next) := by
  cases ran : first with
  | error failure =>
      obtain ⟨kind, record, defective, named⟩ := firstRejects.blames failure ran
      exact blamed (.inl defective) kind named
  | ok value =>
      have sound : ∀ record, ¬ Defective record := fun record defective => by
        obtain ⟨failure, failed⟩ := firstRejects.fails_iff.mpr ⟨record, defective⟩
        rw [ran] at failed
        cases failed
      exact (nextRejects value ran).congr fun record => (or_iff_right (sound record)).symm

theorem returning {computed : Except Failure α} (rejects : Rejects Defective computed) (f : α → β) :
    Rejects Defective (computed >>= fun value => Except.ok (f value)) := by
  have nothing : ∀ value, Rejects (fun _ => False) (Except.ok (f value) : Except Failure β) :=
    fun value => pure (f value) fun _ => id
  exact (rejects.bind fun value _ => nothing value).congr fun record => iff_of_eq (or_false _)

theorem map_m {f : FunctionRecord → Except Failure α} {records : List FunctionRecord}
    (each : ∀ record ∈ records, Rejects (fun other => other = record ∧ Defective record) (f record)) :
    Rejects (fun record => record ∈ records ∧ Defective record) (records.mapM f) := by
  induction records with
  | nil => exact pure [] fun record defective => List.not_mem_nil defective.1
  | cons record rest ih =>
      obtain ⟨own, others⟩ := List.forall_mem_cons.mp each
      rw [List.mapM_cons]
      refine (own.bind fun value _ => (ih others).returning (value :: ·)).congr fun other => ?_
      rw [List.mem_cons, or_and_right]
      exact or_congr_left (and_congr_right fun same => by rw [same])

end Rejects

theorem Writes.rejects {fits : Prop} {computed : Except Failure α} (writes : Writes fits computed)
    (record : FunctionRecord) : Rejects (fun other => other = record ∧ ¬ fits)
      (computed.mapError (·.inFunction record.id)) := by
  cases ran : computed with
  | ok value =>
      have fit := writes.succeeds_iff.mp ⟨value, ran⟩
      exact .pure value fun other defective => defective.2 fit
  | error failure =>
      rw [ran] at writes
      have unfit : ¬ fits := fun fit => nomatch writes.succeeds_iff.mpr fit
      exact .blamed ⟨rfl, unfit⟩ (writes.kind failure rfl) rfl

end ExecCounts
