import ExecCounts.Proofs.Worth

set_option autoImplicit false

namespace ExecCounts

variable {σ α β : Type}

structure Counted (α : Type) where
  result : α
  rounds : Nat

def Counted.map (f : α → β) (counted : Counted α) : Counted β := ⟨f counted.result, counted.rounds⟩

def Counting (σ α : Type) : Type := σ → Counted (EStateM.Result Failure σ α)

namespace Counting

instance : Monad (Counting σ) where
  pure value := fun state => ⟨.ok value state, 0⟩
  bind first next := fun state =>
    match (first state).result with
    | .ok value middle =>
        let rest := next value middle
        ⟨rest.result, (first state).rounds + rest.rounds⟩
    | .error failure after => ⟨.error failure after, (first state).rounds⟩

instance : MonadLift (EStateM Failure σ) (Counting σ) := ⟨fun value state => ⟨value state, 0⟩⟩

def round : Counting σ Unit := fun state => ⟨.ok () state, 1⟩

def loop (n : Nat) (body : Counting σ α) : Counting σ (List α) :=
  times n do
    round
    body

theorem bind_of_ok {first : Counting σ α} {next : α → Counting σ β} {state middle : σ} {value : α}
    (ran : (first state).result = .ok value middle) : (first >>= next) state =
      ⟨(next value middle).result, (first state).rounds + (next value middle).rounds⟩ := by
  change (match (first state).result with
    | .ok value middle => _
    | .error failure after => _) = _
  rw [ran]

theorem bind_of_error {first : Counting σ α} {next : α → Counting σ β} {state after : σ}
    {failure : Failure} (failed : (first state).result = .error failure after) :
    (first >>= next) state = ⟨.error failure after, (first state).rounds⟩ := by
  change (match (first state).result with
    | .ok value middle => _
    | .error failure after => _) = _
  rw [failed]

end Counting

section Pays

variable (left : σ → Nat)

/-- A reader that counts has the outcome of the one that does not. What it takes and the credit pay
for its rounds and for the worth of the result; a reader that fails has spent no more than there
was. -/
structure Pays (counting : Counting σ α) (value : EStateM Failure σ α) (credit : Nat)
    (worth : α → Nat) : Prop where
  same : ∀ state, (counting state).result = value state
  passed : ∀ state result after, value state = .ok result after →
    (counting state).rounds + left after + worth result ≤ left state + credit
  failed : ∀ state failure after, value state = .error failure after →
    (counting state).rounds ≤ left state + credit

variable {left} {credit : Nat}

theorem lift_pays {value : EStateM Failure σ α} {worth : α → Nat}
    (covers : Covers left value credit worth) : Pays left (liftM value) value credit worth where
  same _ := rfl
  passed state result after ran := by
    have taken := covers state result after ran
    change 0 + left after + worth result ≤ _
    omega
  failed _ _ _ _ := Nat.zero_le _

theorem pure_pays {worth : α → Nat} {value : α} (enough : worth value ≤ credit) :
    Pays left (pure value) (pure value) credit worth :=
  lift_pays (pure_covers enough)

theorem bind_pays {first : Counting σ α} {next : α → Counting σ β} {value : EStateM Failure σ α}
    {following : α → EStateM Failure σ β} {between : α → Nat} {worth : β → Nat}
    (head : Pays left first value credit between)
    (tail : ∀ result, Pays left (next result) (following result) (between result) worth) :
    Pays left (first >>= next) (value >>= following) credit worth where
  same state := by
    cases ran : value state with
    | ok result middle =>
        rw [Counting.bind_of_ok ((head.same state).trans ran), run_bind_of_ok ran]
        exact (tail result).same middle
    | error failure after =>
        rw [Counting.bind_of_error ((head.same state).trans ran)]
        exact ((run_bind_error_iff _ _ _ _ _).mpr (.inl ran)).symm
  passed state result after ran := by
    obtain ⟨found, middle, firstRan, nextRan⟩ := (run_bind_ok_iff _ _ _ _ _).mp ran
    have spent := head.passed state found middle firstRan
    have rest := (tail found).passed middle result after nextRan
    rw [Counting.bind_of_ok ((head.same state).trans firstRan)]
    dsimp only
    omega
  failed state failure after ran := by
    rcases (run_bind_error_iff _ _ _ _ _).mp ran with own | ⟨found, middle, firstRan, nextRan⟩
    · rw [Counting.bind_of_error ((head.same state).trans own)]
      exact head.failed state failure after own
    · have spent := head.passed state found middle firstRan
      have rest := (tail found).failed middle failure after nextRan
      rw [Counting.bind_of_ok ((head.same state).trans firstRan)]
      dsimp only
      omega

theorem thrown_pays (failure : Failure) (next : α → Counting σ β) (following : α → EStateM Failure σ β)
    (worth : β → Nat) : Pays left (liftM (throw failure : EStateM Failure σ α) >>= next)
      (throw failure >>= following) credit worth where
  same _ := rfl
  passed state result after ran := by cases ran
  failed _ _ _ _ := Nat.zero_le _

theorem round_pays {next : Counting σ α} {value : EStateM Failure σ α} {worth : α → Nat}
    (pays : Pays left next value credit worth) :
    Pays left (Counting.round >>= fun _ => next) value (credit + 1) worth where
  same := pays.same
  passed state result after ran := by
    have spent := pays.passed state result after ran
    change 1 + (next state).rounds + left after + worth result ≤ _
    omega
  failed state failure after ran := by
    have spent := pays.failed state failure after ran
    change 1 + (next state).rounds ≤ _
    omega

theorem loop_pays {body : Counting σ α} {action : EStateM Failure σ α}
    (each : ∀ credit, Pays left body action credit fun _ => credit + 1) (n : Nat) :
    Pays left (Counting.loop n body) (times n action) (credit + 1) fun _ => credit + 1 := by
  induction n with
  | zero => exact pure_pays (Nat.le_refl _)
  | succ n ih =>
      apply bind_pays (round_pays (each credit))
      intro first
      apply bind_pays ih
      intro others
      exact pure_pays (Nat.le_refl _)

end Pays

section Loops

variable (next : σ → Option (Counted (Transcript α σ)))

/-- A loop whose rounds are not bounded by anything. Each round starts in the state in which the one
before it ended, up to a state from which no round starts or a round that fails. -/
inductive Loops : σ → Counted (Transcript α Unit) → Prop where
  | ended {state : σ} (finished : next state = none) : Loops state ⟨.done (), 0⟩
  | stopped {state : σ} {turn : Counted (Transcript α σ)} {failure : Failure}
      (begun : next state = some turn) (failed : turn.result.outcome = .error failure) :
      Loops state ⟨⟨turn.result.entries, .error failure⟩, turn.rounds + 1⟩
  | further {state after : σ} {turn : Counted (Transcript α σ)} {others : Counted (Transcript α Unit)}
      (begun : next state = some turn) (went : turn.result.outcome = .ok after)
      (rest : Loops after others) :
      Loops state ⟨⟨turn.result.entries ++ others.result.entries, others.result.outcome⟩,
        turn.rounds + 1 + others.rounds⟩

/-- A round pays for itself and for the rounds of the loops in it, where a unit of what is left is
worth `rate`. -/
structure PaysTurn (size : σ → Nat) (rate : Nat) (state : σ) (turn : Counted (Transcript α σ)) : Prop where
  passed : ∀ after, turn.result.outcome = .ok after →
    turn.rounds + 1 + rate * size after ≤ rate * size state
  few : turn.rounds ≤ rate * size state

variable {next} {size : σ → Nat} {rate : Nat}

theorem PaysTurn.shrinks {state after : σ} {turn : Counted (Transcript α σ)}
    (pays : PaysTurn size rate state turn) (went : turn.result.outcome = .ok after) :
    size after < size state := by
  have paid := pays.passed after went
  apply Nat.lt_of_not_le
  intro more
  have most := Nat.mul_le_mul_left rate more
  omega

theorem loops_of_paid {run : Nat → σ → Transcript α Unit}
    (idle : ∀ state, run 0 state = .done ())
    (step : ∀ fuel state, run (fuel + 1) state =
      (next state).elim (.done ()) fun turn => turn.result.andThen (run fuel))
    (finished : ∀ state, size state = 0 → next state = none)
    (paid : ∀ state turn, next state = some turn → PaysTurn size rate state turn)
    (fuel : Nat) (state : σ) (enough : size state ≤ fuel) :
    ∃ rounds, Loops next state ⟨run fuel state, rounds⟩ ∧ rounds ≤ rate * size state + 1 := by
  induction fuel generalizing state with
  | zero =>
      rw [idle]
      exact ⟨0, .ended (finished state (Nat.eq_zero_of_le_zero enough)), Nat.zero_le _⟩
  | succ fuel ih =>
      rw [step]
      cases begun : next state with
      | none => exact ⟨0, .ended begun, Nat.zero_le _⟩
      | some turn =>
          have pays := paid state turn begun
          rw [Option.elim_some, Transcript.andThen]
          cases went : turn.result.outcome with
          | error failure =>
              exact ⟨turn.rounds + 1, .stopped begun went, Nat.succ_le_succ pays.few⟩
          | ok after =>
              -- The bound falls by one, and what is left by at least as much.
              have smaller := pays.shrinks went
              obtain ⟨rounds, rest, few⟩ := ih after (by omega)
              have spent := pays.passed after went
              exact ⟨turn.rounds + 1 + rounds, .further begun went rest, by omega⟩

end Loops

end ExecCounts
