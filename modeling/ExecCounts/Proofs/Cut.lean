import ExecCounts.Proofs.Reading
import ExecCounts.Proofs.Shortened

set_option autoImplicit false

namespace ExecCounts.Read

variable {α β : Type} {order : ByteOrder} {start : Nat} {bytes others : Bytes}

def isTruncation (kind : FailureKind) : Prop := kind = .truncatedInput

theorem truncated : isTruncation .truncatedInput := rfl

/-- With only a proper beginning of `bytes` left to read, the read fails for want of data. -/
def Needs (value : Read α) (order : ByteOrder) (start : Nat) (bytes : Bytes) : Prop :=
  ∀ left missing : Bytes, bytes = left ++ missing → missing ≠ [] →
    Refuses value order start left fun failure => isTruncation failure.kind

/-- Takes `bytes` and does from there on what `next` does, or fails for want of data if some
of them are missing. So what is known of two reads can be put together in one go when one
follows the other. -/
structure Leads (value next : Read α) (order : ByteOrder) (start : Nat) (bytes : Bytes) : Prop where
  onward : ∀ (cursor : Cursor) (rest : Bytes), cursor.order = order → cursor.offset = start →
    cursor.rest = bytes ++ rest → ∃ middle : Cursor, middle.data = cursor.data ∧
      middle.order = order ∧ middle.offset = start + bytes.length ∧ value cursor = next middle
  needs : Needs value order start bytes

theorem cut_within {left missing : Bytes} (shape : bytes ++ others = left ++ missing) :
    (∃ cut, bytes = left ++ cut ∧ cut ≠ []) ∨
      ∃ between, left = bytes ++ between ∧ others = between ++ missing := by
  obtain ⟨between, longer, behind⟩ | ⟨cut, shorter, rest⟩ := List.append_eq_append_iff.mp shape
  · exact .inr ⟨between, longer, behind⟩
  · by_cases none : cut = []
    · refine .inr ⟨[], ?_, ?_⟩
      · rw [shorter, none, List.append_nil, List.append_nil]
      · rw [rest, none]
        rfl
    · exact .inl ⟨cut, shorter, none⟩

theorem leads_self (value : Read α) : Leads value value order start [] where
  onward := fun cursor _ ordered placed _ => ⟨cursor, rfl, ordered, placed, rfl⟩
  needs := by
    intro left missing shape lost
    exact absurd (List.append_eq_nil_iff.mp shape.symm).2 lost

theorem needs_of_survives {value : Read α} {result : α}
    (yields : Yields value order start bytes [] result)
    (survives : ∀ missing, Survives isTruncation missing value) : Needs value order start bytes := by
  intro left missing shape lost cursor ordered placed remaining
  have within : cursor.offset ≤ (cursor.data ++ missing).length := by
    have bound := cursor.offset_le
    rw [List.length_append]
    omega
  -- A run on the data as it was shows where this one would end: behind all that is left.
  let whole : Cursor := ⟨cursor.data ++ missing, order, cursor.offset, _, within, rfl⟩
  have shortened : Cursor.Shortened missing whole cursor := ⟨rfl, ordered, rfl⟩
  have wholeLeft : whole.rest = bytes ++ [] := by
    rw [shortened.rest, remaining, shape, List.append_nil]
  obtain ⟨after, ran, data, -, moved⟩ := yields whole rfl placed wholeLeft
  obtain ⟨failure, final, failed, blamed⟩ | ⟨other, shortAfter, -, -, shortenedOn⟩ :=
    survives missing whole cursor shortened result after ran
  · exact ⟨failure, final, failed, blamed⟩
  · have inside := shortAfter.offset_le
    have sameData := shortened.same_data shortenedOn data
    have some := List.length_pos_iff.mpr lost
    have size := congrArg List.length shape
    have room := congrArg List.length remaining
    rw [cursor.rest_eq, List.length_drop] at room
    rw [shortenedOn.offset, moved, sameData] at inside
    rw [List.length_append] at size
    omega

theorem leads_of_yields {value : Read α} {result : α}
    (yields : ∀ rest, Yields value order start bytes rest result)
    (survives : ∀ missing, Survives isTruncation missing value) :
    Leads value (pure result) order start bytes where
  onward := by
    intro cursor rest ordered placed remaining
    obtain ⟨after, ran, data, afterOrder, moved⟩ := yields rest cursor ordered placed remaining
    exact ⟨after, data, afterOrder, moved, ran⟩
  needs := needs_of_survives (yields []) survives

theorem bind_leads {first : Read α} {next : α → Read β} {last : Read β} {value : α}
    (head : Leads first (pure value) order start bytes)
    (tail : Leads (next value) last order (start + bytes.length) others) :
    Leads (first >>= next) last order start (bytes ++ others) where
  onward := by
    intro cursor rest ordered placed remaining
    rw [List.append_assoc] at remaining
    obtain ⟨middle, data, middleOrder, moved, ran⟩ := head.onward cursor _ ordered placed remaining
    have left := rest_after cursor middle bytes remaining data (by rw [moved, placed])
    obtain ⟨after, dataOn, afterOrder, movedOn, ranOn⟩ := tail.onward middle rest middleOrder moved left
    refine ⟨after, dataOn.trans data, afterOrder, ?_, ?_⟩
    · rw [movedOn, List.length_append, Nat.add_assoc]
    · rw [run_bind_of_ok (ran.trans rfl), ranOn]
  needs := by
    intro left missing shape lost
    obtain ⟨cut, cutFirst, some⟩ | ⟨between, rfl, behind⟩ := cut_within shape
    · exact bind_refuses (head.needs left cut cutFirst some)
    · intro cursor ordered placed remaining
      obtain ⟨middle, data, middleOrder, moved, ran⟩ := head.onward cursor _ ordered placed remaining
      have leftOver := rest_after cursor middle bytes remaining data (by rw [moved, placed])
      obtain ⟨failure, after, failed, blamed⟩ :=
        tail.needs between missing behind lost middle middleOrder moved leftOver
      exact ⟨failure, after, by rw [run_bind_of_ok (ran.trans rfl), failed], blamed⟩

theorem bind_leads_nil {first : Read α} {next : α → Read β} {last : Read β} {value : α}
    (head : ∀ rest, Yields first order start [] rest value)
    (tail : Leads (next value) last order start bytes) :
    Leads (first >>= next) last order start bytes where
  onward := by
    intro cursor rest ordered placed remaining
    obtain ⟨middle, ran, data, middleOrder, moved⟩ := head _ cursor ordered placed remaining
    obtain rfl := Cursor.ext_position data (middleOrder.trans ordered.symm) (moved.trans placed.symm)
    rw [run_bind_of_ok ran]
    exact tail.onward middle rest ordered placed remaining
  needs := fun left missing shape lost => bind_refuses_nil (head left)
    (tail.needs left missing shape lost)

theorem bind_leads_last {first : Read α} {next : α → Read β} {last : Read β} {value : α}
    (head : Leads first (pure value) order start bytes)
    (tail : Leads (next value) last order (start + bytes.length) []) :
    Leads (first >>= next) last order start bytes := by
  have both := bind_leads head tail
  rwa [List.append_nil] at both

end ExecCounts.Read
