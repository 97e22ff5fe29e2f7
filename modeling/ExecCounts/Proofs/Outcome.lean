import ExecCounts.Bytes
import Mathlib.Data.List.Forall2

set_option autoImplicit false

namespace ExecCounts

variable {ε α β : Type}

theorem bind_ok_iff (first : Except ε α) (next : α → Except ε β) (result : β) :
    first >>= next = .ok result ↔ ∃ value, first = .ok value ∧ next value = .ok result := by
  cases first <;> simp [bind, Except.bind]

theorem bind_error_iff (first : Except ε α) (next : α → Except ε β) (failure : ε) :
    first >>= next = .error failure ↔
      first = .error failure ∨ ∃ value, first = .ok value ∧ next value = .error failure := by
  cases first <;> simp [bind, Except.bind]

theorem map_ok_iff (first : Except ε α) (f : α → β) (result : β) :
    f <$> first = .ok result ↔ ∃ value, first = .ok value ∧ f value = result := by
  cases first <;> simp [Functor.map, Except.map]

theorem map_error_iff (first : Except ε α) (f : α → β) (failure : ε) :
    f <$> first = .error failure ↔ first = .error failure := by
  cases first <;> simp [Functor.map, Except.map]

theorem pure_ok_iff (value result : α) :
    (pure value : Except ε α) = .ok result ↔ value = result := by
  simp [pure, Except.pure]

theorem throw_ok_iff (failure : ε) (result : α) :
    (throw failure : Except ε α) = .ok result ↔ False := by
  simp [throw, throwThe, MonadExceptOf.throw]

theorem is_ok_iff (computed : Except ε α) :
    computed.isOk = true ↔ ∃ value, computed = .ok value := by
  cases computed <;> simp [Except.isOk, Except.toBool]

theorem both_ok_iff {γ : Type} (first : Except ε α) (second : Except ε β) (f : α → β → γ) :
    (∃ result, (do
      let a ← first
      let b ← second
      return f a b) = Except.ok result) ↔
        (∃ value, first = .ok value) ∧ ∃ value, second = .ok value := by
  cases first <;> cases second <;> simp [bind, Except.bind, pure, Except.pure]

theorem state_bind_ok_iff {σ : Type} (first : StateT σ (Except ε) α)
    (next : α → StateT σ (Except ε) β) (state : σ) (result : β × σ) :
    (first >>= next) state = .ok result ↔
      ∃ value middle, first state = .ok (value, middle) ∧ next value middle = .ok result := by
  change (first state >>= fun pair => next pair.1 pair.2) = _ ↔ _
  rw [bind_ok_iff, Prod.exists]

theorem state_pure_ok_iff {σ : Type} (value : α) (state : σ) (result : α × σ) :
    (pure value : StateT σ (Except ε) α) state = .ok result ↔ (value, state) = result :=
  pure_ok_iff (value, state) result

theorem state_lift_ok_iff {σ : Type} (first : Except ε α) (state : σ) (result : α × σ) :
    (liftM first : StateT σ (Except ε) α) state = .ok result ↔
      first = .ok result.1 ∧ state = result.2 := by
  obtain ⟨value, after⟩ := result
  change (first >>= fun value => pure (value, state)) = _ ↔ _
  simp only [bind_ok_iff, pure_ok_iff, Prod.mk.injEq]
  constructor
  · rintro ⟨_, ran, rfl, rfl⟩
    exact ⟨ran, rfl⟩
  · rintro ⟨ran, rfl⟩
    exact ⟨value, ran, rfl, rfl⟩

theorem run_bind_ok_iff {σ : Type} (first : EStateM ε σ α) (next : α → EStateM ε σ β) (state : σ)
    (result : β) (after : σ) :
    (first >>= next) state = .ok result after ↔
      ∃ value middle, first state = .ok value middle ∧ next value middle = .ok result after := by
  change EStateM.bind first next state = _ ↔ _
  rw [EStateM.bind]
  cases first state <;> simp

theorem run_bind_of_ok {σ : Type} {first : EStateM ε σ α} {next : α → EStateM ε σ β} {state : σ}
    {value : α} {middle : σ} (ran : first state = .ok value middle) :
    (first >>= next) state = next value middle := by
  change EStateM.bind first next state = _
  simp only [EStateM.bind, ran]

theorem run_bind_error_iff {σ : Type} (first : EStateM ε σ α) (next : α → EStateM ε σ β) (state : σ)
    (failure : ε) (after : σ) :
    (first >>= next) state = .error failure after ↔ first state = .error failure after ∨
      ∃ value middle, first state = .ok value middle ∧ next value middle = .error failure after := by
  change EStateM.bind first next state = _ ↔ _
  rw [EStateM.bind]
  cases first state <;> simp

theorem run_pure_ok_iff {σ : Type} (value : α) (state : σ) (result : α) (after : σ) :
    (pure value : EStateM ε σ α) state = .ok result after ↔ value = result ∧ state = after := by
  change EStateM.Result.ok value state = _ ↔ _
  simp

theorem map_error_ok_iff {ε' : Type} (first : Except ε α) (context : ε → ε') (result : α) :
    first.mapError context = .ok result ↔ first = .ok result := by
  cases first <;> simp [Except.mapError]

theorem map_error_error_iff {ε' : Type} (first : Except ε α) (context : ε → ε') (failure : ε') :
    first.mapError context = .error failure ↔ ∃ own, first = .error own ∧ context own = failure := by
  cases first <;> simp [Except.mapError]

theorem forall₂_exists {R : α → β → Prop} {values : List α} {results : List β}
    (each : List.Forall₂ R values results) : ∀ value ∈ values, ∃ result ∈ results, R value result := by
  induction each with
  | nil => exact nofun
  | cons related _ ih =>
      refine List.forall_mem_cons.mpr ⟨⟨_, List.mem_cons_self, related⟩, fun value member => ?_⟩
      obtain ⟨result, listed, other⟩ := ih value member
      exact ⟨result, List.mem_cons_of_mem _ listed, other⟩

theorem map_m_ok_iff (f : α → Except ε β) (values : List α) (results : List β) :
    values.mapM f = .ok results ↔
      List.Forall₂ (fun value result => f value = .ok result) values results := by
  induction values generalizing results with
  | nil => simp [pure, Except.pure, eq_comm]
  | cons value rest ih =>
      simp only [List.mapM_cons, bind_ok_iff, pure_ok_iff, ih, List.forall₂_cons_left_iff]
      constructor
      · rintro ⟨first, firstOk, others, othersOk, rfl⟩
        exact ⟨first, others, firstOk, othersOk, rfl⟩
      · rintro ⟨first, others, firstOk, othersOk, rfl⟩
        exact ⟨first, firstOk, others, othersOk, rfl⟩

theorem map_m_ok_of {f : α → Except ε β} {g : α → β} {fits : α → Prop} {values : List α}
    {results : List β} (each : ∀ value result, f value = .ok result → result = g value ∧ fits value)
    (ok : values.mapM f = .ok results) :
    results = values.map g ∧ ∀ value ∈ values, fits value := by
  rw [map_m_ok_iff] at ok
  induction ok with
  | nil => exact ⟨rfl, nofun⟩
  | cons head _ ih =>
      obtain ⟨shape, passed⟩ := each _ _ head
      rw [List.map_cons, ← shape, ← ih.1]
      exact ⟨rfl, List.forall_mem_cons.mpr ⟨passed, ih.2⟩⟩

theorem map_m_ok_get {f : α → Except ε β} {values : List α} {results : List β}
    (ok : values.mapM f = .ok results) (index : Nat) (value : α)
    (found : values[index]? = some value) :
    ∃ result, results[index]? = some result ∧ f value = .ok result := by
  rw [map_m_ok_iff] at ok
  induction ok generalizing index with
  | nil => cases found
  | cons head _ ih =>
      cases index with
      | zero =>
          cases found
          exact ⟨_, rfl, head⟩
      | succ index => exact ih index found

theorem map_m_ok_length {f : α → Except ε β} {values : List α} {results : List β}
    (ok : values.mapM f = .ok results) : results.length = values.length :=
  ((map_m_ok_iff f values results).mp ok).length_eq.symm

theorem map_m_succeeds_iff (f : α → Except ε β) (values : List α) :
    (∃ results, values.mapM f = .ok results) ↔ ∀ value ∈ values, ∃ result, f value = .ok result := by
  constructor
  · rintro ⟨results, ok⟩ value listed
    obtain ⟨result, -, own⟩ := forall₂_exists ((map_m_ok_iff f values results).mp ok) value listed
    exact ⟨result, own⟩
  · intro each
    induction values with
    | nil => exact ⟨[], rfl⟩
    | cons value rest ih =>
        obtain ⟨⟨result, own⟩, later⟩ := List.forall_mem_cons.mp each
        obtain ⟨results, others⟩ := ih later
        rw [map_m_ok_iff] at others
        exact ⟨result :: results, (map_m_ok_iff _ _ _).mpr (.cons own others)⟩

theorem map_m_error {f : α → Except ε β} {values : List α} {failure : ε}
    (failed : values.mapM f = .error failure) : ∃ value ∈ values, f value = .error failure := by
  induction values with
  | nil => cases failed
  | cons value rest ih =>
      rw [List.mapM_cons, bind_error_iff] at failed
      obtain own | ⟨result, -, failed⟩ := failed
      · exact ⟨value, List.mem_cons_self, own⟩
      · rw [bind_error_iff] at failed
        obtain later | ⟨results, -, failed⟩ := failed
        · obtain ⟨other, listed, found⟩ := ih later
          exact ⟨other, List.mem_cons_of_mem _ listed, found⟩
        · cases failed

theorem map_m_map_error {ε' : Type} (f : α → Except ε β) (context : ε → ε') (values : List α) :
    (values.mapM fun value => (f value).mapError context) = (values.mapM f).mapError context := by
  induction values with
  | nil => rfl
  | cons value rest ih =>
      rw [List.mapM_cons, List.mapM_cons, ih]
      cases f value with
      | error failure => rfl
      | ok result => cases rest.mapM f <;> rfl

theorem map_m_congr {f g : α → Except ε β} {values : List α}
    (same : ∀ value ∈ values, f value = g value) : values.mapM f = values.mapM g := by
  induction values with
  | nil => rfl
  | cons value rest ih =>
      obtain ⟨own, others⟩ := List.forall_mem_cons.mp same
      rw [List.mapM_cons, List.mapM_cons, own, ih others]

theorem to_option_congr (first second : Except ε α)
    (same : ∀ result, first = .ok result ↔ second = .ok result) :
    first.toOption = second.toOption := by
  cases first with
  | ok value => rw [(same value).mp rfl]
  | error failure =>
      cases second with
      | error other => rfl
      | ok value => cases (same value).mpr rfl

theorem to_option_map_some_iff (computed : Except ε α) (measure : α → β) (value : β) :
    computed.toOption.map measure = some value ↔
      ∃ result, computed = .ok result ∧ measure result = value := by
  cases computed <;> simp [Except.toOption]

theorem to_option_bind (first : Except ε α) (next : α → Except ε β) :
    (first >>= next).toOption = first.toOption.bind fun value => (next value).toOption := by
  cases first <;> rfl

theorem to_option_map_m (f : α → Except ε β) (values : List α) :
    (values.mapM f).toOption = values.mapM fun value => (f value).toOption := by
  induction values with
  | nil => rfl
  | cons value rest ih =>
      rw [List.mapM_cons, List.mapM_cons, to_option_bind]
      congr 1
      funext first
      rw [to_option_bind, ih]
      rfl

theorem to_option_map_error {ε' : Type} (first : Except ε α) (context : ε → ε') :
    (first.mapError context).toOption = first.toOption := by
  cases first <;> rfl

end ExecCounts
