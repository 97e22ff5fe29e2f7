import ExecCounts.Proofs.Local
import ExecCounts.Proofs.Rounds

set_option autoImplicit false

namespace ExecCounts

def Cursor.supply (rate : Nat) (cursor : Cursor) : Nat := rate * cursor.remaining

variable {α : Type} {rate credit : Nat}

theorem Cursor.Moved.remaining {n : Nat} {cursor after : Cursor} (moved : cursor.Moved n after) :
    after.remaining + n = cursor.remaining := by
  have within := after.offset_le
  rw [moved.data, moved.offset] at within
  rw [after.remaining_eq, cursor.remaining_eq, moved.data, moved.offset]
  omega

namespace Read

theorem covers_of_moved {value : Read α} {size : α → Nat}
    (moves : ∀ cursor result after, value cursor = .ok result after →
      ∃ taken, size result ≤ taken ∧ cursor.Moved taken after) :
    Covers (Cursor.supply rate) value credit fun result => credit + rate * size result := by
  intro cursor result after ran
  obtain ⟨taken, enough, moved⟩ := moves cursor result after ran
  have paid := Nat.mul_le_mul_left rate enough
  rw [Cursor.supply, Cursor.supply, ← moved.remaining, Nat.mul_add]
  dsimp only
  omega

theorem local_covers {value : Read α} (settled : Local value) :
    Covers (Cursor.supply rate) value credit fun _ => credit := by
  intro cursor result after ran
  obtain ⟨data, onward⟩ := settled.onward ran
  have fewer : after.remaining ≤ cursor.remaining := by
    rw [after.remaining_eq, cursor.remaining_eq, data]
    omega
  exact Nat.add_le_add_right (Nat.mul_le_mul_left rate fewer) _

theorem ended_covers {refused : Read α} {result : α} {worth : α → Nat}
    (fails : Covers (Cursor.supply rate) refused credit worth) (enough : worth result ≤ credit) :
    Covers (Cursor.supply rate)
      (atEnd >>= fun ended => if !ended then refused else pure result) credit worth := by
  have looks : Covers (Cursor.supply rate) atEnd credit fun _ => credit := by
    apply bind_covers get_covers
    intro cursor
    exact pure_covers (Nat.le_refl _)
  apply bind_covers looks
  intro ended
  split
  · exact fails
  · exact pure_covers enough

theorem bytes_covers (n : Nat) :
    Covers (Cursor.supply rate) (bytes n) credit fun taken => credit + rate * taken.length := by
  apply covers_of_moved
  intro cursor taken after ran
  obtain ⟨-, length, moved⟩ := bytes_ran ran
  exact ⟨n, Nat.le_of_eq length, moved⟩

theorem u32_covers : Covers (Cursor.supply rate) u32 credit fun _ => credit + rate * 4 :=
  covers_of_moved fun _ _ _ ran => ⟨4, Nat.le_refl _, (u32_ran ran).2⟩

theorem u64_covers : Covers (Cursor.supply rate) u64 credit fun _ => credit + rate * 8 :=
  covers_of_moved fun _ _ _ ran => ⟨8, Nat.le_refl _, (u64_ran ran).2⟩

theorem uleb_covers : Covers (Cursor.supply rate) uleb credit fun _ => credit + rate * 1 := by
  apply covers_of_moved
  intro cursor word after ran
  obtain ⟨used, decoded, moved⟩ := uleb_ran ran
  exact ⟨used, Leb128.decode_pos _ _ _ decoded, moved⟩

theorem uleb32_covers : Covers (Cursor.supply rate) uleb32 credit fun _ => credit + rate * 1 := by
  apply bind_covers (local_covers position_local)
  intro start
  apply bind_covers uleb_covers
  intro word
  split
  · exact pure_covers (Nat.le_refl _)
  · exact throw_covers _ _

theorem uleb_text_covers :
    Covers (Cursor.supply rate) ulebText credit fun _ => credit + rate * 1 := by
  apply bind_covers uleb_covers
  intro length
  exact local_covers (text_local _)

end Read

namespace Counting

def read (cursor : Cursor) (value : Counting Cursor α) : Counted (Except Failure α) :=
  match (value cursor).result with
  | .ok result _ => ⟨.ok result, (value cursor).rounds⟩
  | .error failure _ => ⟨.error failure, (value cursor).rounds⟩

def ofExcept (outcome : Counted (Except Failure α)) : Counting Cursor α := fun cursor =>
  ⟨Read.ofExcept outcome.result cursor, outcome.rounds⟩

theorem read_paid {counting : Counting Cursor α} {value : Read α} {worth : α → Nat}
    (pays : Pays (Cursor.supply rate) counting value credit worth) (cursor : Cursor) :
    (read cursor counting).result = cursor.read value ∧
      (read cursor counting).rounds ≤ rate * cursor.remaining + credit := by
  rw [read, Cursor.read, pays.same cursor]
  cases ran : value cursor with
  | ok result after =>
      have spent := pays.passed cursor result after ran
      rw [Cursor.supply, Cursor.supply] at spent
      exact ⟨rfl, by dsimp only; omega⟩
  | error failure after => exact ⟨rfl, pays.failed cursor failure after ran⟩

theorem of_except_pays {counted : Counted (Except Failure α)} {outcome : Except Failure α}
    {left : Cursor → Nat} {spare : Nat}
    (same : counted.result = outcome) (few : counted.rounds ≤ spare) :
    Pays left (ofExcept counted) (Read.ofExcept outcome) (credit + spare) fun _ => credit where
  same cursor := by rw [ofExcept, same]
  passed cursor result after ran := by
    cases outcome with
    | ok value =>
        cases ran
        change counted.rounds + left cursor + credit ≤ _
        omega
    | error failure => cases ran
  failed cursor failure after ran := by
    change counted.rounds ≤ _
    omega

end Counting

end ExecCounts
