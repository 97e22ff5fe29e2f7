import ExecCounts.Failure

set_option autoImplicit false

namespace ExecCounts

inductive Policy where
  | strict
  | bestEffort
deriving DecidableEq, Repr

structure Skipped where
  function : Option FunctionId
  kind : FailureKind
  reason : String
deriving DecidableEq, Repr

def Skipped.ofFailure (failure : Failure) : Skipped :=
  ⟨failure.function, failure.kind, failure.message⟩

def Policy.recover (policy : Policy) (skipped : List Skipped) (failure : Failure) :
    Except Failure (List Skipped) :=
  match policy with
  | .strict => .error failure
  | .bestEffort => .ok (skipped ++ [.ofFailure failure])

/-- What a reader met: one entry for each function, which is what was read or why that function
could not be read, and at the end the outcome of the whole. Only then a `Policy` decides whether
failed entries are left out or make the whole reading fail. -/
structure Transcript (α β : Type) where
  entries : List (Except Failure α)
  outcome : Except Failure β

namespace Transcript

variable {α β γ : Type}

def done (value : β) : Transcript α β := ⟨[], .ok value⟩

def stop (failure : Failure) : Transcript α β := ⟨[], .error failure⟩

def cons (entry : Except Failure α) (rest : Transcript α β) : Transcript α β :=
  { rest with entries := entry :: rest.entries }

def andThen (first : Transcript α β) (next : β → Transcript α γ) : Transcript α γ :=
  match first.outcome with
  | .ok value => ⟨first.entries ++ (next value).entries, (next value).outcome⟩
  | .error failure => ⟨first.entries, .error failure⟩

def gather (policy : Policy) : List Skipped → List (Except Failure α) →
    Except Failure (List α × List Skipped)
  | skipped, [] => .ok ([], skipped)
  | skipped, .ok value :: rest => do
      let (values, skipped) ← gather policy skipped rest
      return (value :: values, skipped)
  | skipped, .error failure :: rest => do
      gather policy (← policy.recover skipped failure) rest

def settle (policy : Policy) (transcript : Transcript α β) :
    Except Failure (List α × List Skipped) := do
  let gathered ← gather policy [] transcript.entries
  let _ ← transcript.outcome
  return gathered

def values (transcript : Transcript α β) : List α :=
  transcript.entries.filterMap fun
    | .ok value => some value
    | .error _ => none

def failures (transcript : Transcript α β) : List Failure :=
  transcript.entries.filterMap fun
    | .ok _ => none
    | .error failure => some failure

theorem gather_best_effort (skipped : List Skipped) (entries : List (Except Failure α)) :
    gather .bestEffort skipped entries = .ok (values ⟨entries, .ok ()⟩,
      skipped ++ (failures ⟨entries, .ok ()⟩).map Skipped.ofFailure) := by
  induction entries generalizing skipped with
  | nil => simp [gather, values, failures]
  | cons entry rest ih =>
      cases entry with
      | ok value => simp [gather, ih, values, failures, bind, Except.bind, pure, Except.pure]
      | error failure =>
          simp [gather, Policy.recover, ih, values, failures, bind, Except.bind]

end Transcript

end ExecCounts
