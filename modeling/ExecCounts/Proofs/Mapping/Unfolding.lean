import ExecCounts.Mapping.ExprTable
import ExecCounts.Proofs.Outcome

set_option autoImplicit false

namespace ExecCounts.ExprTable

/-- The tree that a number stands for. A derivation is finite, so that nothing is behind a cycle. -/
inductive Unfolds (table : ExprTable) : UInt64 → Expr → Prop where
  | zero {number : UInt64} (tag : number.toNat % 4 = 0) : Unfolds table number .zero
  -- The position is that of a counter, so that it has 32 bits.
  | counter {number : UInt64} {index : UInt32} (tag : number.toNat % 4 = counterTag)
      (position : number.toNat / 4 = index.toNat) : Unfolds table number (.counter index)
  | subtract {number a b : UInt64} {left right : Expr} (tag : number.toNat % 4 = subtractTag)
      (entry : table[number.toNat / 4]? = some (a, b)) (first : Unfolds table a left)
      (second : Unfolds table b right) : Unfolds table number (.subtract left right)
  | add {number a b : UInt64} {left right : Expr} (tag : number.toNat % 4 = addTag)
      (entry : table[number.toNat / 4]? = some (a, b)) (first : Unfolds table a left)
      (second : Unfolds table b right) : Unfolds table number (.add left right)

variable {table : ExprTable}

theorem Unfolds.unique {number : UInt64} {expr other : Expr} (first : Unfolds table number expr)
    (second : Unfolds table number other) : other = expr := by
  induction first generalizing other with
  | zero tag =>
      cases second with
      | zero => rfl
      | counter otherTag | subtract otherTag | add otherTag => cases tag.symm.trans otherTag
  | counter tag position =>
      cases second with
      | counter _ otherPosition =>
          rw [UInt32.toNat_inj.mp (otherPosition.symm.trans position)]
      | zero otherTag | subtract otherTag | add otherTag => cases tag.symm.trans otherTag
  | subtract tag entry _ _ leftIh rightIh =>
      cases second with
      | subtract _ otherEntry left right =>
          cases entry.symm.trans otherEntry
          rw [leftIh left, rightIh right]
      | zero otherTag | counter otherTag | add otherTag => cases tag.symm.trans otherTag
  | add tag entry _ _ leftIh rightIh =>
      cases second with
      | add _ otherEntry left right =>
          cases entry.symm.trans otherEntry
          rw [leftIh left, rightIh right]
      | zero otherTag | counter otherTag | subtract otherTag => cases tag.symm.trans otherTag

theorem operands_ok_iff (index : Nat) (pair : UInt64 × UInt64) :
    table.operands index = .ok pair ↔ table[index]? = some pair := by
  rw [operands]
  cases table[index]? <;> simp

theorem resolve_pair {levels budget : Nat} {number a b : UInt64}
    (kind : number.toNat % 4 = subtractTag ∨ number.toNat % 4 = addTag)
    (entry : table[number.toNat / 4]? = some (a, b)) :
    table.resolveWithin (levels + 1) number (budget + 1) = (do
      let (left, budget) ← table.resolveWithin levels a budget
      let (right, budget) ← table.resolveWithin levels b budget
      return (if number.toNat % 4 = addTag then .add left right else .subtract left right,
        budget)) := by
  have above : number.toNat % 4 ≠ 0 ∧ number.toNat % 4 ≠ counterTag := by
    rcases kind with tag | tag <;> rw [tag] <;> decide
  have found := (operands_ok_iff _ _).mpr entry
  rw [resolveWithin]
  simp only [if_neg above.1, if_neg above.2, found]
  rfl

theorem unfolds_of_resolved {levels budget left : Nat} {number : UInt64} {expr : Expr}
    (resolved : table.resolveWithin levels number budget = .ok (expr, left)) :
    Unfolds table number expr ∧ expr.depth < levels ∧ expr.size + left = budget := by
  induction levels generalizing number budget expr left with
  | zero => cases resolved
  | succ levels ih =>
      cases budget with
      | zero => cases resolved
      | succ budget =>
          rw [resolveWithin] at resolved
          dsimp only at resolved
          split at resolved
          · rename_i tag
            cases resolved
            exact ⟨.zero tag, Nat.succ_pos _, Nat.add_comm _ _⟩
          · split at resolved
            · rename_i tag
              split at resolved
              · rename_i small
                cases resolved
                exact ⟨.counter tag (UInt32.toNat_ofNat_of_lt' small).symm, Nat.succ_pos _,
                  Nat.add_comm _ _⟩
              · cases resolved
            · rename_i counted plain
              obtain ⟨⟨a, b⟩, entryOk, resolved⟩ := (bind_ok_iff _ _ _).mp resolved
              obtain ⟨⟨first, between⟩, firstOk, resolved⟩ := (bind_ok_iff _ _ _).mp resolved
              obtain ⟨⟨second, rest⟩, secondOk, same⟩ := (bind_ok_iff _ _ _).mp resolved
              -- Both operands are resolved one level down, the second with what the first has left.
              obtain ⟨firstUnfolds, firstDepth, firstSize⟩ := ih firstOk
              obtain ⟨secondUnfolds, secondDepth, secondSize⟩ := ih secondOk
              have entry := (operands_ok_iff _ _).mp entryOk
              have shape := (pure_ok_iff _ _).mp same
              dsimp only at firstSize secondSize shape
              split at shape
              · rename_i tag
                cases shape
                refine ⟨.add tag entry firstUnfolds secondUnfolds, ?_, ?_⟩
                · rw [Expr.depth]
                  omega
                · rw [Expr.size]
                  omega
              · rename_i other
                cases shape
                have tag : number.toNat % 4 = subtractTag := by
                  simp only [counterTag, subtractTag, addTag] at *
                  omega
                refine ⟨.subtract tag entry firstUnfolds secondUnfolds, ?_, ?_⟩
                · rw [Expr.depth]
                  omega
                · rw [Expr.size]
                  omega

theorem resolve_operands {levels : Nat} {number a b : UInt64} {first second : Expr}
    (kind : number.toNat % 4 = subtractTag ∨ number.toNat % 4 = addTag)
    (entry : table[number.toNat / 4]? = some (a, b))
    (firstOk : ∀ left, table.resolveWithin levels a (first.size + left) = .ok (first, left))
    (secondOk : ∀ left, table.resolveWithin levels b (second.size + left) = .ok (second, left))
    (left : Nat) : table.resolveWithin (levels + 1) number (first.size + second.size + 1 + left) =
      .ok (if number.toNat % 4 = addTag then .add first second else .subtract first second, left) := by
  have spent : first.size + second.size + 1 + left = first.size + (second.size + left) + 1 := by omega
  rw [spent, resolve_pair kind entry, firstOk]
  change (table.resolveWithin levels b (second.size + left) >>= _) = _
  rw [secondOk]
  rfl

theorem resolved_of_unfolds {levels : Nat} {number : UInt64} {expr : Expr}
    (unfolds : Unfolds table number expr) (shallow : expr.depth < levels) (left : Nat) :
    table.resolveWithin levels number (expr.size + left) = .ok (expr, left) := by
  induction levels generalizing number expr left with
  | zero => exact absurd shallow (Nat.not_lt_zero _)
  | succ levels ih =>
      cases unfolds with
      | zero tag =>
          rw [Expr.size, Nat.add_comm 1 left, resolveWithin]
          dsimp only
          rw [if_pos tag]
      | @counter _ index tag position =>
          have plain : number.toNat % 4 ≠ 0 := by rw [tag]; decide
          rw [Expr.size, Nat.add_comm 1 left, resolveWithin]
          dsimp only
          rw [if_neg plain, if_pos tag, position, if_pos index.toNat_lt_size, UInt32.ofNat_toNat]
      | subtract tag entry first second =>
          have bounds := Nat.max_lt.mp (Nat.lt_of_succ_lt_succ shallow)
          have resolved := resolve_operands (.inl tag) entry (ih first bounds.1) (ih second bounds.2) left
          rwa [if_neg (by rw [tag]; decide)] at resolved
      | add tag entry first second =>
          have bounds := Nat.max_lt.mp (Nat.lt_of_succ_lt_succ shallow)
          have resolved := resolve_operands (.inr tag) entry (ih first bounds.1) (ih second bounds.2) left
          rwa [if_pos tag] at resolved

theorem operands_error {index : Nat} {failure : Failure}
    (failed : table.operands index = .error failure) : failure.kind = .corruptMapping := by
  rw [operands] at failed
  cases found : table[index]? with
  | some pair =>
      rw [found] at failed
      cases failed
  | none =>
      rw [found] at failed
      cases failed
      rfl

theorem resolve_error {levels budget : Nat} {number : UInt64} {failure : Failure}
    (failed : table.resolveWithin levels number budget = .error failure) :
    failure.kind = .corruptMapping := by
  induction levels generalizing number budget with
  | zero =>
      cases failed
      rfl
  | succ levels ih =>
      cases budget with
      | zero =>
          cases failed
          rfl
      | succ budget =>
          rw [resolveWithin] at failed
          dsimp only at failed
          split at failed
          · cases failed
          split at failed
          · split at failed
            · cases failed
            · cases failed
              rfl
          -- The entry is missing, or one of its operands fails.
          simp only [bind_error_iff] at failed
          obtain missing | ⟨_, -, first | ⟨_, -, second | ⟨_, -, failed⟩⟩⟩ := failed
          · exact operands_error missing
          · exact ih first
          · exact ih second
          · cases failed

theorem resolve_ok_iff (budget left : Nat) (number : UInt64) (expr : Expr) :
    table.resolve number budget = .ok (expr, left) ↔
      Unfolds table number expr ∧ expr.depth ≤ 64 ∧ expr.size + left = budget := by
  constructor
  · intro resolved
    obtain ⟨unfolds, shallow, spent⟩ := unfolds_of_resolved resolved
    exact ⟨unfolds, Nat.le_of_lt_succ shallow, spent⟩
  · rintro ⟨unfolds, shallow, rfl⟩
    exact resolved_of_unfolds unfolds (Nat.lt_succ_of_le shallow) left

theorem resolve_unfit {budget : Nat} {number : UInt64} {expr : Expr}
    (unfolds : Unfolds table number expr) (unfit : ¬ (expr.depth ≤ 64 ∧ expr.size ≤ budget)) :
    ∃ failure, table.resolve number budget = .error failure ∧ failure.kind = .corruptMapping := by
  cases outcome : table.resolve number budget with
  | ok result =>
      obtain ⟨other, shallow, spent⟩ := (resolve_ok_iff _ _ _ _).mp outcome
      rw [unfolds.unique other] at shallow spent
      exact absurd ⟨shallow, spent ▸ Nat.le_add_right _ _⟩ unfit
  | error failure => exact ⟨failure, rfl, resolve_error outcome⟩

section Calls

inductive Answers (table : ExprTable) (budget : Nat) (number : UInt64) :
    Except Failure Expr → Nat → Prop where
  | resolved {expr : Expr} {left : Nat} (unfolds : Unfolds table number expr)
      (unique : ∀ other, Unfolds table number other → other = expr) (shallow : expr.depth ≤ 64)
      (spent : expr.size + left = budget) : Answers table budget number (.ok expr) left
  | refused {failure : Failure} (corrupt : failure.kind = .corruptMapping)
      (unfit : ¬ ∃ expr, Unfolds table number expr ∧ expr.depth ≤ 64 ∧ expr.size ≤ budget) :
      Answers table budget number (.error failure) budget

inductive AnswersAll (table : ExprTable) :
    Nat → List UInt64 → List (Except Failure Expr) → Nat → Prop where
  | nil {budget : Nat} : AnswersAll table budget [] [] budget
  | cons {budget between left : Nat} {number : UInt64} {numbers : List UInt64}
      {outcome : Except Failure Expr} {outcomes : List (Except Failure Expr)}
      (first : Answers table budget number outcome between)
      (rest : AnswersAll table between numbers outcomes left) :
      AnswersAll table budget (number :: numbers) (outcome :: outcomes) left

theorem call_answers (table : ExprTable) (budget : Nat) (number : UInt64) :
    Answers table budget number (table.call budget number).1 (table.call budget number).2 := by
  rw [call]
  cases outcome : table.resolve number budget with
  | ok result =>
      obtain ⟨unfolds, shallow, spent⟩ := (resolve_ok_iff _ _ _ _).mp outcome
      exact .resolved unfolds (fun _ => unfolds.unique) shallow spent
  | error failure =>
      refine .refused (resolve_error outcome) ?_
      rintro ⟨expr, unfolds, shallow, affordable⟩
      have resolved := (resolve_ok_iff budget (budget - expr.size) number expr).mpr
        ⟨unfolds, shallow, Nat.add_sub_cancel' affordable⟩
      cases outcome.symm.trans resolved

theorem calls_answered (table : ExprTable) (budget : Nat) (numbers : List UInt64) :
    AnswersAll table budget numbers (table.calls budget numbers).1 (table.calls budget numbers).2 := by
  induction numbers generalizing budget with
  | nil => exact .nil
  | cons number rest ih => exact .cons (call_answers table budget number) (ih _)

-- A cycle is given up, and the budget that it used up is there for the call after it.
example : (calls #[(3, 1)] 66 [3, 1]).2 = 65 := by decide +kernel

end Calls

end ExecCounts.ExprTable
