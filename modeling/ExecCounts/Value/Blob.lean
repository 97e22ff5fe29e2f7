import ExecCounts.Cursor
import ExecCounts.Value

set_option autoImplicit false

namespace ExecCounts.Blob

def headerSize : Nat := 8

/-- Cuts a blob out of what follows. Where this fails, the position of everything behind the blob is
unknown. -/
def frame : Read Cursor := do
  let start ← Read.position
  let size := (← Read.u32).toNat
  if size < headerSize ∨ size % 8 ≠ 0 then
    throw ((Failure.because .invalidEncoding
      s!"invalid value profile size {Numeral.decimal size}").atOffset start)
  Read.seek start
  let order := (← get).order
  return .ofBytes (← Read.bytes size) order

def observation : Read Observation := do
  let value ← Read.u64
  let count ← Read.u64
  return ⟨value, count⟩

def sites : List UInt8 → Read (List Site)
  | [] => pure []
  | count :: counts => do
      let site ← times count.toNat observation
      return site :: (← sites counts)

def kinds : Nat → List ValueKind → ValueProfile → Read ValueProfile
  | 0, _, profile => pure profile
  | n + 1, seen, profile => do
      let number := (← Read.u32).toNat
      match (ValueKind.ofNumber? number).filter fun kind => !seen.contains kind with
      | none =>
          throw (.because .invalidEncoding s!"unexpected value kind {Numeral.decimal number}")
      | some kind =>
          let siteCount := (← Read.u32).toNat
          let counts ← Read.bytes siteCount
          Read.align 8
          let found ← sites counts
          kinds n (kind :: seen) (profile.withSites found kind)

def checkSites (declared : ValueKind → Nat) (profile : ValueProfile) :
    List ValueKind → Except Failure Unit
  | [] => .ok ()
  | kind :: rest =>
      let found := (profile.sites kind).length
      if declared kind = found then checkSites declared profile rest
      else
        .error (.because .invalidEncoding
          ("expected " ++ Numeral.decimal (declared kind) ++ " " ++ kind.name ++ " sites, found " ++
            Numeral.decimal found))

/-- The total size and the number of kinds come first, then for each kind with sites its number, the
number of sites, a byte with the number of values of each site, padding, and all values with their
counts. Padding is measured from the start of the blob. -/
def decode (declared : Option (ValueKind → Nat)) : Read ValueProfile := do
  let size := (← get).remaining
  Read.skip 4
  let kindCount := (← Read.u32).toNat
  if ValueKind.all.length < kindCount then
    throw (.because .invalidEncoding
      s!"{Numeral.decimal kindCount} value kinds in value profile")
  let profile ← kinds kindCount [] .empty
  let used ← Read.position
  if !(← Read.atEnd) then
    throw (.because .invalidEncoding
      s!"value profile declares {Numeral.decimal size} bytes but uses {Numeral.decimal used}")
  match declared with
  | none => return profile
  | some declared =>
      Read.ofExcept (checkSites declared profile ValueKind.all)
      return profile

def kindSize (sites : List Site) : Nat :=
  if sites.isEmpty then 0
  else 8 + alignUp sites.length 8 + 16 * sites.flatten.length

def size (profile : ValueProfile) : Nat :=
  headerSize + (ValueKind.all.map fun kind => kindSize (profile.sites kind)).foldl (· + ·) 0

def siteCounts (kind : ValueKind) : List Site → Except Failure Bytes
  | [] => .ok []
  | site :: rest =>
      if site.length < 256 then
        (UInt8.ofNat site.length :: ·) <$> siteCounts kind rest
      else
        .error (.because .writeFailed
          (Numeral.decimal site.length ++ " values in a single " ++ kind.name ++ " site"))

def encodeObservation (seen : Observation) : Bytes := le64 seen.value.toNat ++ le64 seen.count.toNat

def padFrom (start : Nat) (buffer : Bytes) : Bytes :=
  buffer ++ Bytes.zeros (start + alignUp (buffer.length - start) 8 - buffer.length)

def encodeKind (start : Nat) (profile : ValueProfile) (buffer : Bytes) (kind : ValueKind) :
    Except Failure Bytes :=
  let sites := profile.sites kind
  if sites.isEmpty then .ok buffer
  else do
    let counts ← siteCounts kind sites
    return padFrom start (buffer ++ le32 kind.number ++ le32 sites.length ++ counts) ++
      sites.flatten.flatMap encodeObservation

def encodeOnto (buffer : Bytes) (profile : ValueProfile) : Except Failure Bytes := do
  let total := size profile
  if UInt32.size ≤ total then throw (.because .writeFailed "value profile exceeds 4GiB")
  let used := ValueKind.all.filter fun kind => !(profile.sites kind).isEmpty
  ValueKind.all.foldlM (encodeKind buffer.length profile)
    (buffer ++ le32 total ++ le32 used.length)

def encode (profile : ValueProfile) : Except Failure Bytes := encodeOnto [] profile

end ExecCounts.Blob
