import ExecCounts.Proofs.Coverage.Active

set_option autoImplicit false

namespace ExecCounts

def covering (segments : List Segment) (number : Nat) : List Segment :=
  segments.filter fun segment => segment.first ≤ number ∧ number ≤ segment.last

namespace LineEvent

def after (isOpen : List Count) (event : LineEvent) : List Count :=
  if event.starts then event.count :: isOpen else isOpen.erase event.count

def run (active : ActiveCounts) (events : List LineEvent) : ActiveCounts :=
  events.foldl (fun active event => event.apply active) active

def Balanced : List Count → List LineEvent → Prop
  | _, [] => True
  | isOpen, event :: events =>
      (event.starts = false → event.count ∈ isOpen) ∧ Balanced (event.after isOpen) events

def isStart (count : Count) (event : LineEvent) : Bool := event.starts && event.count == count

def isEnd (count : Count) (event : LineEvent) : Bool := !event.starts && event.count == count

theorem holds_apply (active : ActiveCounts) (isOpen : List Count) (event : LineEvent)
    (holds : active.Holds isOpen) (known : event.starts = false → event.count ∈ isOpen) :
    (event.apply active).Holds (event.after isOpen) := by
  rw [apply, after]
  cases kind : event.starts with
  | true => exact ActiveCounts.holds_insert active isOpen event.count holds
  | false => exact ActiveCounts.holds_remove active isOpen event.count holds (known kind)

theorem holds_run (active : ActiveCounts) (isOpen : List Count) (events : List LineEvent)
    (holds : active.Holds isOpen) (balanced : Balanced isOpen events) :
    (run active events).Holds (events.foldl after isOpen) := by
  induction events generalizing active isOpen with
  | nil => exact holds
  | cons event events ih =>
      exact ih _ _ (holds_apply active isOpen event holds balanced.1) balanced.2

theorem count_open (isOpen : List Count) (events : List LineEvent)
    (balanced : Balanced isOpen events) (count : Count) :
    (events.foldl after isOpen).count count + events.countP (isEnd count) =
      isOpen.count count + events.countP (isStart count) := by
  induction events generalizing isOpen with
  | nil => rfl
  | cons event events ih =>
      have rest := ih (after isOpen event) balanced.2
      rw [List.foldl_cons, List.countP_cons, List.countP_cons]
      cases kind : event.starts with
      | true =>
          rw [after, if_pos kind, List.count_cons] at rest
          simp only [isEnd, isStart, kind, after] at rest ⊢
          simp at rest ⊢
          omega
      | false =>
          have known := List.count_pos_iff.mpr (balanced.1 kind)
          rw [after, if_neg (by rw [kind]; exact Bool.false_ne_true), List.count_erase] at rest
          by_cases same : event.count = count
          · subst same
            simp [isEnd, isStart, kind, after] at rest ⊢
            omega
          · simp [isEnd, isStart, kind, after, same] at rest ⊢
            omega

theorem balanced_of_counts (isOpen : List Count) (events : List LineEvent)
    (enough : ∀ (done rest : List LineEvent) (event : LineEvent), events = done ++ event :: rest →
      event.starts = false → done.countP (isEnd event.count) <
        isOpen.count event.count + done.countP (isStart event.count)) :
    Balanced isOpen events := by
  induction events generalizing isOpen with
  | nil => trivial
  | cons event events ih =>
      have known : event.starts = false → event.count ∈ isOpen := by
        intro kind
        exact List.count_pos_iff.mp (enough [] events event rfl kind)
      refine ⟨known, ih (after isOpen event) ?_⟩
      intro done rest later shape laterKind
      have whole := enough (event :: done) rest later (by rw [shape, List.cons_append]) laterKind
      have first := count_open isOpen [event] ⟨known, trivial⟩ later.count
      rw [List.countP_cons, List.countP_cons] at whole
      rw [List.countP_cons, List.countP_cons] at first
      simp only [List.foldl_cons, List.foldl_nil, List.countP_nil, Nat.zero_add] at first
      omega

theorem balanced_before (isOpen : List Count) (done rest : List LineEvent)
    (balanced : Balanced isOpen (done ++ rest)) : Balanced isOpen done := by
  induction done generalizing isOpen with
  | nil => trivial
  | cons event done ih => exact ⟨balanced.1, ih _ balanced.2⟩

theorem le_iff (a b : LineEvent) : a.le b = true ↔ a.line < b.line ∨ a.line = b.line ∧
    (a.starts.toNat < b.starts.toNat ∨
      a.starts.toNat = b.starts.toNat ∧ a.count.toNat ≤ b.count.toNat) := by
  rw [le]
  cases a.starts <;> cases b.starts <;> simp [UInt64.le_iff_toNat_le]

theorem le_trans (a b c : LineEvent) (first : a.le b = true) (second : b.le c = true) :
    a.le c = true := by
  rw [le_iff] at *
  omega

theorem le_total (a b : LineEvent) : (a.le b || b.le a) = true := by
  rw [Bool.or_eq_true, le_iff, le_iff]
  omega

theorem events_sorted (segments : List Segment) :
    (ofSegments segments).Pairwise fun a b => a.le b = true :=
  List.pairwise_mergeSort le_trans le_total _

theorem events_perm (segments : List Segment) :
    (ofSegments segments).Perm (segments.flatMap ofSegment) :=
  List.mergeSort_perm _ _

def Proper (segments : List Segment) : Prop :=
  ∀ segment ∈ segments, segment.first ≤ segment.last ∧ segment.last < lastLine

theorem take_while_sorted (events : List LineEvent) (number : Nat)
    (sorted : events.Pairwise fun a b => a.line ≤ b.line) :
    events.takeWhile (·.line ≤ number) = events.filter (·.line ≤ number) := by
  induction events with
  | nil => rfl
  | cons event events ih =>
      obtain ⟨first, rest⟩ := List.pairwise_cons.mp sorted
      by_cases reached : event.line ≤ number
      · simp [reached, ih rest]
      · have later : events.filter (fun event => decide (event.line ≤ number)) = [] := by
          apply List.filter_eq_nil_iff.mpr
          intro other member
          have order := first other member
          simp
          omega
        simp [reached, later]

section Split

variable {events done rest : List LineEvent} {event : LineEvent}
  (sorted : events.Pairwise fun a b => a.le b = true) (shape : events = done ++ event :: rest)

include sorted shape

theorem ended_by (kind : event.starts = false) : done.countP (isEnd event.count) <
    events.countP fun other => isEnd event.count other && decide (other.line ≤ event.line) := by
  rw [shape] at sorted ⊢
  obtain ⟨-, -, before⟩ := List.pairwise_append.mp sorted
  have here : (isEnd event.count event && decide (event.line ≤ event.line)) = true := by
    simp [isEnd, kind]
  have all : done.countP (isEnd event.count) = done.countP fun other =>
      isEnd event.count other && decide (other.line ≤ event.line) := by
    apply List.countP_congr
    intro other member
    have order := (le_iff _ _).mp (before other member event List.mem_cons_self)
    have line : other.line ≤ event.line := by omega
    simp [line]
  rw [List.countP_append, List.countP_cons, if_pos here, all]
  omega

theorem started_before (count : Count) : (events.countP fun other =>
    isStart count other && decide (other.line < event.line)) ≤ done.countP (isStart count) := by
  rw [shape] at sorted ⊢
  obtain ⟨-, fromEvent, -⟩ := List.pairwise_append.mp sorted
  have later := (List.pairwise_cons.mp fromEvent).1
  have none_later : (event :: rest).countP (fun other =>
      isStart count other && decide (other.line < event.line)) = 0 := by
    apply List.countP_eq_zero.mpr
    intro other member
    have line : ¬ other.line < event.line := by
      cases member with
      | head => exact Nat.lt_irrefl _
      | tail _ member =>
          have order := (le_iff _ _).mp (later other member)
          omega
    simp [line]
  rw [List.countP_append, none_later, Nat.add_zero]
  apply List.countP_mono_left
  intro other _ both
  exact (Bool.and_eq_true _ _ ▸ both).1

end Split

section Counts

variable (segments : List Segment) (proper : Proper segments)

include proper

theorem count_starts (test : Nat → Bool) (count : Count) :
    (ofSegments segments).countP (fun event => isStart count event && test event.line) =
      segments.countP fun segment => segment.count == count && test segment.first := by
  rw [(events_perm segments).countP_eq]
  induction segments with
  | nil => rfl
  | cons segment rest ih =>
      have properRest := fun other member => proper other (List.mem_cons_of_mem _ member)
      rw [List.flatMap_cons, List.countP_append, ih properRest, List.countP_cons]
      simp [ofSegment, isStart, List.countP_cons, Nat.add_comm]

theorem count_ends (test : Nat → Bool) (count : Count) :
    (ofSegments segments).countP (fun event => isEnd count event && test event.line) =
      segments.countP fun segment => segment.count == count && test (segment.last + 1) := by
  rw [(events_perm segments).countP_eq]
  induction segments with
  | nil => rfl
  | cons segment rest ih =>
      have properRest := fun other member => proper other (List.mem_cons_of_mem _ member)
      have within : min (segment.last + 1) lastLine = segment.last + 1 :=
        Nat.min_eq_left (proper segment List.mem_cons_self).2
      rw [List.flatMap_cons, List.countP_append, ih properRest, List.countP_cons]
      simp [ofSegment, isEnd, within, List.countP_cons, Nat.add_comm]

theorem events_balanced : Balanced [] (ofSegments segments) := by
  apply balanced_of_counts
  intro done rest event shape kind
  have ended := ended_by (events_sorted segments) shape kind
  have started := started_before (events_sorted segments) shape event.count
  have between : (ofSegments segments).countP (fun other =>
      isEnd event.count other && decide (other.line ≤ event.line)) ≤
        (ofSegments segments).countP fun other =>
          isStart event.count other && decide (other.line < event.line) := by
    rw [count_ends segments proper (fun line => decide (line ≤ event.line)),
      count_starts segments proper (fun line => decide (line < event.line))]
    apply List.countP_mono_left
    intro segment member both
    have order := (proper segment member).1
    simp only [Bool.and_eq_true, decide_eq_true_eq] at both ⊢
    exact ⟨both.1, by omega⟩
  rw [List.count_nil]
  omega

theorem count_covering (number : Nat) (count : Count) :
    ((covering segments number).map Segment.count).count count + segments.countP (fun segment =>
      segment.count == count && decide (segment.last + 1 ≤ number)) =
        segments.countP fun segment =>
          segment.count == count && decide (segment.first ≤ number) := by
  induction segments with
  | nil => rfl
  | cons segment rest ih =>
      have order := (proper segment List.mem_cons_self).1
      have others := ih fun other member => proper other (List.mem_cons_of_mem _ member)
      rw [covering] at others ⊢
      rw [List.countP_cons, List.countP_cons]
      by_cases same : segment.count = count
      · by_cases ended : segment.last + 1 ≤ number
        · have started : segment.first ≤ number := by omega
          have outside : ¬ number ≤ segment.last := by omega
          simp [same, ended, started, outside] at others ⊢
          omega
        · have inside : number ≤ segment.last := by omega
          by_cases started : segment.first ≤ number
          · simp [same, started, inside, ended] at others ⊢
            omega
          · simp [same, started, ended] at others ⊢
            omega
      · by_cases inside : segment.first ≤ number ∧ number ≤ segment.last
        · simp [same, inside] at others ⊢
          omega
        · simp [same, inside] at others ⊢
          omega

theorem open_on_line (number : Nat) :
    (((ofSegments segments).takeWhile (·.line ≤ number)).foldl after []).Perm
      ((covering segments number).map Segment.count) := by
  have lines := take_while_sorted (ofSegments segments) number ((events_sorted segments).imp
    fun {a b} order => by
      have cases_of := (le_iff a b).mp order
      omega)
  have balanced := events_balanced segments proper
  have split := List.takeWhile_append_dropWhile
    (p := fun event : LineEvent => decide (event.line ≤ number)) (l := ofSegments segments)
  rw [← split] at balanced
  have counted := count_open [] _ (balanced_before _ _ _ balanced)
  rw [List.perm_iff_count]
  intro count
  have known := counted count
  rw [lines, List.countP_filter, List.countP_filter,
    count_ends segments proper (fun line => decide (line ≤ number)),
    count_starts segments proper (fun line => decide (line ≤ number))] at known
  have covered := count_covering segments proper number count
  rw [List.count_nil, Nat.zero_add] at known
  rw [lines]
  omega

end Counts

end LineEvent

namespace Span

def at? (spans : List Span) (number : Nat) : Option Count :=
  (spans.find? fun span => span.first ≤ number ∧ number ≤ span.last).map Span.count

theorem at_cons (span : Span) (spans : List Span) (number : Nat) :
    at? (span :: spans) number =
      if span.first ≤ number ∧ number ≤ span.last then some span.count else at? spans number := by
  rw [at?, List.find?_cons]
  by_cases inside : span.first ≤ number ∧ number ≤ span.last
  · simp [inside]
  · simp [inside, at?]

theorem sweep_at (fold : LineFold) (events : List LineEvent) (previous : Nat)
    (active : ActiveCounts) (number : Nat)
    (sorted : events.Pairwise fun a b => a.line ≤ b.line)
    (from_previous : ∀ event ∈ events, previous ≤ event.line)
    (closed : (LineEvent.run active events).folded fold = none) :
    at? (sweep fold events previous active) number = if number < previous then none
      else (LineEvent.run active (events.takeWhile (·.line ≤ number))).folded fold := by
  induction events generalizing previous active with
  | nil =>
      have nothing : active.folded fold = none := closed
      simp [sweep, at?, LineEvent.run, nothing]
  | cons event events ih =>
      obtain ⟨first, rest⟩ := List.pairwise_cons.mp sorted
      have here := from_previous event List.mem_cons_self
      have others := ih event.line (event.apply active) rest first closed
      -- The first span ends before the next event, and the others are those of the sweep from there
      -- on.
      have head : at? (sweep fold (event :: events) previous active) number =
          if previous ≤ number ∧ number < event.line then active.folded fold
          else at? (sweep fold events event.line (event.apply active)) number := by
        rw [sweep]
        cases folded : active.folded fold with
        | none =>
            by_cases between : previous ≤ number ∧ number < event.line
            · rw [if_pos between, others, if_pos between.2]
            · rw [if_neg between]
        | some count =>
            by_cases gap : previous < event.line
            · simp only [if_pos gap, at_cons]
              have same : (previous ≤ number ∧ number ≤ event.line - 1) ↔
                  (previous ≤ number ∧ number < event.line) := by omega
              simp only [same]
            · have none_between : ¬ (previous ≤ number ∧ number < event.line) := by omega
              simp only [if_neg gap, if_neg none_between]
      rw [head]
      by_cases before : number < previous
      · rw [if_pos before, if_neg (by omega), others, if_pos (by omega)]
      · rw [if_neg before]
        by_cases reached : event.line ≤ number
        · rw [if_neg (by omega), others, if_neg (by omega)]
          simp [reached, LineEvent.run]
        · rw [if_pos (by omega)]
          simp [reached, LineEvent.run]

structure Ordered (start : Nat) (spans : List Span) : Prop where
  apart : spans.Pairwise fun a b => a.last < b.first
  within : ∀ span ∈ spans, start ≤ span.first ∧ span.first ≤ span.last

theorem sweep_ordered (fold : LineFold) (events : List LineEvent) (previous : Nat)
    (active : ActiveCounts) (sorted : events.Pairwise fun a b => a.line ≤ b.line)
    (from_previous : ∀ event ∈ events, previous ≤ event.line) :
    Ordered previous (sweep fold events previous active) := by
  induction events generalizing previous active with
  | nil => exact ⟨List.Pairwise.nil, nofun⟩
  | cons event events ih =>
      obtain ⟨first, rest⟩ := List.pairwise_cons.mp sorted
      have here := from_previous event List.mem_cons_self
      have others := ih event.line (event.apply active) rest first
      have later : Ordered previous (sweep fold events event.line (event.apply active)) := by
        refine ⟨others.apart, ?_⟩
        intro span member
        have bounds := others.within span member
        omega
      rw [sweep]
      cases active.folded fold with
      | none => exact later
      | some count =>
          by_cases gap : previous < event.line
          · simp only [if_pos gap]
            refine ⟨List.pairwise_cons.mpr ⟨?_, others.apart⟩, ?_⟩
            · intro span member
              have bounds := others.within span member
              dsimp only
              omega
            · intro span member
              rcases List.mem_cons.mp member with rfl | member
              · dsimp only
                omega
              · exact later.within span member
          · simp only [if_neg gap]
            exact later

section Segments

variable (fold : LineFold) (segments : List Segment)

theorem lines_sorted : (LineEvent.ofSegments segments).Pairwise fun a b => a.line ≤ b.line := by
  refine (LineEvent.events_sorted segments).imp ?_
  intro a b order
  have lines := (LineEvent.le_iff a b).mp order
  omega

theorem of_segments_ordered : Ordered 0 (ofSegments fold segments) :=
  sweep_ordered fold _ 0 .empty (lines_sorted segments) fun _ _ => Nat.zero_le _

variable (proper : LineEvent.Proper segments)

include proper

theorem folded_on_line (number : Nat) :
    (LineEvent.run .empty ((LineEvent.ofSegments segments).takeWhile
      (·.line ≤ number))).folded fold = if (covering segments number).isEmpty then none
        else some (fold.combined ((covering segments number).map Segment.count)) := by
  have isOpen := LineEvent.open_on_line segments proper number
  have split := List.takeWhile_append_dropWhile
    (p := fun event : LineEvent => decide (event.line ≤ number))
    (l := LineEvent.ofSegments segments)
  have balanced := LineEvent.events_balanced segments proper
  rw [← split] at balanced
  have holds := LineEvent.holds_run .empty [] _ ActiveCounts.holds_empty
    (LineEvent.balanced_before _ _ _ balanced)
  rw [ActiveCounts.folded_eq _ _ fold holds, isOpen.isEmpty_eq, List.isEmpty_map,
    LineFold.combined_perm fold _ _ isOpen]

theorem event_line_le (event : LineEvent) (member : event ∈ LineEvent.ofSegments segments) :
    event.line ≤ LineEvent.lastLine := by
  have listed := (LineEvent.events_perm segments).mem_iff.mp member
  obtain ⟨segment, known, made⟩ := List.mem_flatMap.mp listed
  have bounds := proper segment known
  simp only [LineEvent.ofSegment, List.mem_cons, List.not_mem_nil, or_false] at made
  rcases made with rfl | rfl
  · dsimp only
    omega
  · exact Nat.min_le_right _ _

theorem of_segments_at (number : Nat) : at? (ofSegments fold segments) number =
    if (covering segments number).isEmpty then none
    else some (fold.combined ((covering segments number).map Segment.count)) := by
  have closed : (LineEvent.run .empty (LineEvent.ofSegments segments)).folded fold = none := by
    have last := folded_on_line fold segments proper LineEvent.lastLine
    have nothing : (covering segments LineEvent.lastLine).isEmpty = true := by
      rw [List.isEmpty_iff, covering, List.filter_eq_nil_iff]
      intro segment member
      have bounds := proper segment member
      simp
      omega
    have all : (LineEvent.ofSegments segments).takeWhile (·.line ≤ LineEvent.lastLine) =
        LineEvent.ofSegments segments := by
      rw [LineEvent.take_while_sorted _ _ (lines_sorted segments), List.filter_eq_self]
      intro event member
      exact decide_eq_true (event_line_le segments proper event member)
    rwa [if_pos nothing, all] at last
  rw [ofSegments, sweep_at fold _ 0 .empty number (lines_sorted segments)
    (fun _ _ => Nat.zero_le _) closed, if_neg (Nat.not_lt_zero number)]
  exact folded_on_line fold segments proper number

end Segments

section Lines

variable {spans : List Span} {number : Nat}

theorem at_of_mem (apart : spans.Pairwise fun a b => a.last < b.first) (span : Span)
    (member : span ∈ spans) (inside : span.first ≤ number ∧ number ≤ span.last) :
    at? spans number = some span.count := by
  induction spans with
  | nil => cases member
  | cons head rest ih =>
      obtain ⟨first, others⟩ := List.pairwise_cons.mp apart
      rw [at_cons]
      rcases List.mem_cons.mp member with rfl | later
      · rw [if_pos inside]
      · have behind := first span later
        rw [if_neg (by omega), ih others later]

theorem at_some_iff : (at? spans number).isSome = true ↔
    ∃ span ∈ spans, span.first ≤ number ∧ number ≤ span.last := by
  simp [at?, List.find?_isSome]

end Lines

theorem covering_some_iff (segments : List Segment) (number : Nat) :
    (covering segments number).isEmpty = false ↔
      ∃ segment ∈ segments, segment.first ≤ number ∧ number ≤ segment.last := by
  simp [covering]

structure Pointwise (fold : LineFold) (segments : List Segment) (spans : List Span) : Prop where
  nonEmpty : ∀ span ∈ spans, span.first ≤ span.last
  apart : spans.Pairwise fun a b => a.last < b.first
  covered : ∀ number, (∃ span ∈ spans, span.first ≤ number ∧ number ≤ span.last) ↔
    ∃ segment ∈ segments, segment.first ≤ number ∧ number ≤ segment.last
  counted : ∀ span ∈ spans, ∀ number, span.first ≤ number → number ≤ span.last →
    span.count = fold.combined ((covering segments number).map Segment.count)

theorem sweep_pointwise (fold : LineFold) (segments : List Segment)
    (proper : LineEvent.Proper segments) : Pointwise fold segments (ofSegments fold segments) := by
  have ordered := of_segments_ordered fold segments
  have known := of_segments_at fold segments proper
  refine ⟨fun span member => (ordered.within span member).2, ordered.apart, ?_, ?_⟩
  · intro number
    rw [← at_some_iff, known number, ← covering_some_iff]
    cases (covering segments number).isEmpty <;> simp
  · intro span member number start stop
    have found := at_of_mem ordered.apart span member ⟨start, stop⟩
    rw [known number] at found
    cases empty : (covering segments number).isEmpty with
    | true => simp [empty] at found
    | false => simpa [empty] using found.symm

def nestedSegments : List Segment := [⟨1, 10, 3⟩, ⟨4, 6, 8⟩, ⟨6, 6, 1⟩, ⟨20, 21, 0⟩]

theorem sweep_pointwise_nested :
    (∃ span ∈ ofSegments .sum nestedSegments, span.first ≤ 6 ∧ 6 ≤ span.last ∧ span.count = 12) ∧
      ¬ ∃ span ∈ ofSegments .sum nestedSegments, span.first ≤ 11 ∧ 11 ≤ span.last := by
  have spans := sweep_pointwise .sum nestedSegments (by unfold LineEvent.Proper; decide)
  constructor
  · obtain ⟨span, member, inside⟩ := (spans.covered 6).mpr (by decide)
    exact ⟨span, member, inside.1, inside.2, spans.counted span member 6 inside.1 inside.2⟩
  · exact fun covered => absurd ((spans.covered 11).mp covered) (by decide)

end Span

end ExecCounts
