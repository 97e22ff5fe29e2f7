import ExecCounts.Profile
import ExecCounts.Text.Line
import ExecCounts.Utf8

set_option autoImplicit false

namespace ExecCounts.TextProfile

def valueMarker : String := ":value_profile"

def isText (data : Bytes) : Bool :=
  (data.take 64).all fun b =>
    (0x21 ≤ b && b ≤ 0x7E) || b == 0x20 || b == 0x09 || b == 0x0A || b == 0x0C || b == 0x0D

structure Script where
  lines : List Line
  last : Nat
deriving DecidableEq, Repr

abbrev Scan := EStateM Failure Script

def malformed (what : String) (line : Line) : Failure :=
  (Failure.because .malformedLine
    s!"expected {what}, found `{String.ofList line.text}`").atLine line.number

def expect (what : String) : Scan Line := fun script =>
  match script.lines with
  | line :: rest => .ok line ⟨rest, line.number⟩
  | [] =>
      .error ((Failure.because .malformedLine
        s!"expected {what}, found end of input").atLine (script.last + 1)) script

def expectNumber (what : String) : Scan UInt64 := do
  let line ← expect what
  match Numeral.read? line.text with
  | some n => return n
  | none => throw (malformed what line)

def applyFlag (variant : Variant) (flag : String) : Option Variant :=
  if flag = "ir" then some { variant with ir := true }
  else if flag = "fe" then some { variant with ir := false }
  else if flag = "csir" then some { variant with ir := true, contextSensitive := true }
  else if flag = "entry_first" then some { variant with entryFirst := true }
  else if flag = "not_entry_first" then some { variant with entryFirst := false }
  else none

def header : Variant → Nat → List Line → Except Failure (Variant × Script)
  | variant, last, [] => .ok (variant, ⟨[], last⟩)
  | variant, last, line :: rest =>
      match line.text with
      | ':' :: flag =>
          if String.ofList line.text = valueMarker then .error (malformed "a function name" line)
          else match applyFlag variant (String.ofList (flag.map Char.toLower)) with
            | some changed => header changed line.number rest
            | none => .error (malformed "a header flag" line)
      | _ => .ok (variant, ⟨line :: rest, last⟩)

def takeNumbers : List Line → Nat → List UInt64 × Script
  | [], last => ([], ⟨[], last⟩)
  | line :: rest, last =>
      match Numeral.read? line.text with
      | some n =>
          let (numbers, after) := takeNumbers rest line.number
          (n :: numbers, after)
      | none => ([], ⟨line :: rest, last⟩)

def counters : Scan (List UInt64) := fun script =>
  let (numbers, after) := takeNumbers script.lines script.last
  .ok numbers after

def observation? (text : List Char) : Option Observation :=
  match text.dropWhile (· != ':') with
  | [] => none
  | _ :: count => do
      let value ← Numeral.read? (trim (text.takeWhile (· != ':')))
      return ⟨value, ← Numeral.read? (trim count)⟩

def observation : Scan Observation := do
  let line ← expect "a value and count"
  match observation? line.text with
  | some seen => return seen
  | none => throw (malformed "a value and count" line)

def site : Scan Site := do
  let count ← expectNumber "the number of values"
  times count.toNat observation

def kind : Scan (ValueKind × List Site) := do
  let line ← expect "a value kind"
  match (Numeral.read? line.text).bind fun n => ValueKind.ofNumber? n.toNat with
  | none => throw (malformed "a value kind" line)
  | some kind =>
      let count ← expectNumber "the number of value sites"
      return (kind, ← times count.toNat site)

def addSites (profile : ValueProfile) (sites : ValueKind × List Site) : ValueProfile :=
  profile.withSites (profile.sites sites.1 ++ sites.2) sites.1

def valueProfile : Scan ValueProfile := do
  let count ← expectNumber "the number of value kinds"
  return (← times count.toNat kind).foldl addSites .empty

def optionalValues : Scan (Option ValueProfile) := do
  match (← get).lines with
  | line :: _ =>
      if String.ofList line.text = valueMarker then
        let _ ← expect "a value profile"
        return some (← valueProfile)
      else return none
  | [] => return none

/-- A number of counters that differs from the announced one concerns a single function; every other
deviation makes the whole text unreadable. -/
def block (line : Line) : Scan (Except Failure FunctionRecord) := do
  if line.text.head? = some ':' then throw (malformed "a function name" line)
  let name := String.ofList line.text
  let hash ← expectNumber "a function hash"
  let countLine ← expect "the number of counters"
  match Numeral.read? countLine.text with
  | none => throw (malformed "a counter count" countLine)
  | some declared =>
      let counters ← counters
      let values ← optionalValues
      if counters.length = declared.toNat then return .ok { name, hash, counters, values }
      else
        let detail := "declared " ++ Numeral.decimal declared.toNat ++ " counters, found " ++
          Numeral.decimal counters.length
        let failure := (Failure.because .counterCountMismatch detail).inFunction ⟨name, hash⟩
        return .error (failure.atLine countLine.number)

def blocks : Nat → Script → Transcript FunctionRecord Unit
  | 0, _ => .done ()
  | fuel + 1, script =>
      match script.lines with
      | [] => .done ()
      | line :: rest =>
          match block line ⟨rest, line.number⟩ with
          | .ok entry after => .cons entry (blocks fuel after)
          | .error failure _ => .stop failure

def lines (data : Bytes) : Except Failure (List Line) :=
  match Utf8.read data with
  | .ok text => .ok (Line.ofText text)
  | .error valid => .error (Failure.atOffset valid { kind := .invalidEncoding })

def variant (data : Bytes) : Except Failure Variant := do
  return (← header .plain 0 (← lines data)).1

def transcript (data : Bytes) : Except Failure (Variant × Transcript FunctionRecord Unit) := do
  let (variant, body) ← header .plain 0 (← lines data)
  return (variant, blocks body.lines.length body)

def parse (policy : Policy) (data : Bytes) : Except Failure Profile := do
  let (variant, functions) ← transcript data
  let (records, skipped) ← functions.settle policy
  return { Profile.empty .text with variant, records, skipped }

end ExecCounts.TextProfile
