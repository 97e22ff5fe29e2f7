import ExecCounts.Count
import Std.Data.ExtTreeMap

set_option autoImplicit false

namespace ExecCounts

inductive LineFold where
  | max
  | sum
  | presence
deriving DecidableEq, Repr

def LineFold.resolve (fold : LineFold) (greatest : Count) (sum : Nat) : Count :=
  match fold with
  | .max => greatest
  | .sum => Count.clamp sum
  | .presence => min greatest 1

structure Segment where
  first : Nat
  last : Nat
  count : Count
deriving DecidableEq, Repr

structure Span where
  first : Nat
  last : Nat
  count : Count
deriving DecidableEq, Repr

structure ActiveCounts where
  counts : Std.ExtTreeMap Count Nat
  sum : Nat

namespace ActiveCounts

def empty : ActiveCounts := ⟨∅, 0⟩

def insert (active : ActiveCounts) (count : Count) : ActiveCounts :=
  ⟨active.counts.alter count fun before => some (before.getD 0 + 1), active.sum + count.toNat⟩

def remove (active : ActiveCounts) (count : Count) : ActiveCounts :=
  match active.counts[count]? with
  | none => active
  | some 1 => ⟨active.counts.erase count, active.sum - count.toNat⟩
  | some n => ⟨active.counts.insert count (n - 1), active.sum - count.toNat⟩

def folded (active : ActiveCounts) (fold : LineFold) : Option Count :=
  active.counts.maxKey?.map fun greatest => fold.resolve greatest active.sum

end ActiveCounts

structure LineEvent where
  line : Nat
  starts : Bool
  count : Count
deriving DecidableEq, Repr

namespace LineEvent

/-- The order of the sweep; on one line, regions end before others start. -/
def le (a b : LineEvent) : Bool :=
  a.line < b.line || (a.line == b.line &&
    (!a.starts && b.starts || (a.starts == b.starts && a.count ≤ b.count)))

def lastLine : Nat := UInt32.size - 1

def ofSegment (segment : Segment) : List LineEvent :=
  [⟨segment.first, true, segment.count⟩, ⟨min (segment.last + 1) lastLine, false, segment.count⟩]

def ofSegments (segments : List Segment) : List LineEvent :=
  (segments.flatMap ofSegment).mergeSort le

def apply (event : LineEvent) (active : ActiveCounts) : ActiveCounts :=
  if event.starts then active.insert event.count else active.remove event.count

end LineEvent

namespace Span

/-- Goes through the lines at which regions start and those after which they end, and keeps the
counts of the regions that cover the current line. The work depends on the number of regions only,
not on that of their lines. -/
def sweep (fold : LineFold) : List LineEvent → Nat → ActiveCounts → List Span
  | [], _, _ => []
  | event :: events, previous, active =>
      let spans := sweep fold events event.line (event.apply active)
      match active.folded fold with
      | some count =>
          if previous < event.line then ⟨previous, event.line - 1, count⟩ :: spans else spans
      | none => spans

def ofSegments (fold : LineFold) (segments : List Segment) : List Span :=
  sweep fold (LineEvent.ofSegments segments) 0 .empty

end Span

end ExecCounts
