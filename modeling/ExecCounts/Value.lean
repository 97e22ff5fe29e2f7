import ExecCounts.Count
import ExecCounts.Failure
import Std.Data.ExtTreeMap

set_option autoImplicit false

namespace ExecCounts

inductive ValueKind where
  | indirectCallTarget
  | memOpSize
deriving DecidableEq, Repr

namespace ValueKind

def all : List ValueKind := [.indirectCallTarget, .memOpSize]

def number : ValueKind → Nat
  | .indirectCallTarget => 0
  | .memOpSize => 1

def ofNumber? (n : Nat) : Option ValueKind := all.find? (·.number == n)

def name : ValueKind → String
  | .indirectCallTarget => "IndirectCallTarget"
  | .memOpSize => "MemOpSize"

theorem of_number_number (kind : ValueKind) : ofNumber? kind.number = some kind := by
  cases kind <;> rfl

end ValueKind

structure Observation where
  value : UInt64
  count : Count
deriving DecidableEq, Repr

abbrev Site := List Observation

namespace Site

def tally (site : Site) : Std.ExtTreeMap UInt64 Count :=
  site.foldl (fun counts seen =>
    counts.alter seen.value fun before => some (Count.add (before.getD 0) seen.count)) ∅

def normalize (site : Site) : Site := (tally site).toList.map fun (value, count) => ⟨value, count⟩

def merge (ours theirs : Site) : Site := normalize (ours ++ theirs)

end Site

/-- What an operation in place leaves behind, and why it stopped if it did. -/
structure Attempt (α : Type) where
  state : α
  failure : Option Failure
deriving DecidableEq, Repr

/-- Which values were seen at certain places of a function, and how often. Merging adds the counts
of equal values at the same site. -/
structure ValueProfile where
  indirectCallTargets : List Site
  memOpSizes : List Site
deriving DecidableEq, Repr

namespace ValueProfile

def empty : ValueProfile := ⟨[], []⟩

def sites (profile : ValueProfile) : ValueKind → List Site
  | .indirectCallTarget => profile.indirectCallTargets
  | .memOpSize => profile.memOpSizes

def withSites (profile : ValueProfile) (sites : List Site) : ValueKind → ValueProfile
  | .indirectCallTarget => { profile with indirectCallTargets := sites }
  | .memOpSize => { profile with memOpSizes := sites }

def isEmpty (profile : ValueProfile) : Bool :=
  ValueKind.all.all fun kind => (profile.sites kind).isEmpty

def normalize (profile : ValueProfile) : ValueProfile :=
  ⟨profile.indirectCallTargets.map Site.normalize, profile.memOpSizes.map Site.normalize⟩

/-- Merges one kind after the other, up to the first whose number of sites differs. -/
def mergeKinds (theirs : ValueProfile) : List ValueKind → ValueProfile → Attempt ValueProfile
  | [], ours => ⟨ours, none⟩
  | kind :: kinds, ours =>
      let mine := ours.sites kind
      let other := theirs.sites kind
      if mine.length = other.length then
        mergeKinds theirs kinds (ours.withSites (List.zipWith Site.merge mine other) kind)
      else
        let detail := Numeral.decimal mine.length ++ " " ++ kind.name ++
          " sites cannot be merged with " ++ Numeral.decimal other.length
        ⟨ours, some (.because .counterCountMismatch detail)⟩

def merge (ours theirs : ValueProfile) : Attempt ValueProfile :=
  mergeKinds theirs ValueKind.all ours

theorem is_empty_iff (profile : ValueProfile) : profile.isEmpty = true ↔ profile = empty := by
  cases profile
  simp [isEmpty, ValueKind.all, sites, empty]

end ValueProfile

end ExecCounts
