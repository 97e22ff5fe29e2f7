import ExecCounts.TextProfile.Reader

set_option autoImplicit false

namespace ExecCounts.TextProfile

/-- Whether a line with this text, and no other, reads as this name. -/
def isWritableName (name : List Char) : Bool :=
  !name.isEmpty && trim name == name && !name.contains '\n' && !name.contains '\r' &&
    name.head? != some '#' && name.head? != some ':'

def headerLines (variant : Variant) : List String :=
  let level :=
    if variant.contextSensitive then ["# CSIR level Instrumentation Flag", ":csir"]
    else if variant.ir then ["# IR level Instrumentation Flag", ":ir"]
    else ["# Front-end level Instrumentation Flag", ":fe"]
  if variant.entryFirst then level ++ [":entry_first"] else level

def siteLines (site : Site) : List String :=
  Numeral.decimal site.length :: site.map fun seen =>
    Numeral.decimal seen.value.toNat ++ ":" ++ Numeral.decimal seen.count.toNat

def kindLines (values : ValueProfile) (kind : ValueKind) : List String :=
  let sites := values.sites kind
  [s!"# ValueKind = {kind.name}:", Numeral.decimal kind.number, "# NumValueSites:",
    Numeral.decimal sites.length] ++ sites.flatMap siteLines

def valueLines (values : ValueProfile) : List String :=
  let kinds := ValueKind.all.filter fun kind => !(values.sites kind).isEmpty
  if kinds.isEmpty then []
  else
    [valueMarker, "# Num Value Kinds:", Numeral.decimal kinds.length] ++
      kinds.flatMap (kindLines values)

def recordLines (record : FunctionRecord) : List String :=
  [record.name, "# Func Hash:", Numeral.decimal record.hash.toNat, "# Num Counters:",
    Numeral.decimal record.counters.length, "# Counter Values:"] ++
    record.counters.map (fun count => Numeral.decimal count.toNat) ++
    (record.values.map valueLines).getD [] ++ [""]

def linesOf (profile : Profile) : List String :=
  headerLines profile.variant ++ profile.records.flatMap recordLines

def write (profile : Profile) : Except Failure String :=
  match profile.records.find? fun record => !isWritableName record.name.toList with
  | some record =>
      .error ((Failure.because .writeFailed
        "function name cannot be stored in a text profile").inFunction record.id)
  | none => .ok (String.join ((linesOf profile).map (· ++ "\n")))

end ExecCounts.TextProfile
