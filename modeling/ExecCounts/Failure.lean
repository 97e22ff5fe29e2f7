import ExecCounts.FunctionId
import ExecCounts.Version

set_option autoImplicit false

namespace ExecCounts

inductive FailureKind where
  | badMagic
  | unsupportedVersion
  | truncatedInput
  | invalidEncoding
  | malformedLine
  | counterCountMismatch
  | corruptIndex
  | corruptMapping
  | profileBinaryMismatch
  | writeFailed
deriving DecidableEq, Repr

def FailureKind.text : FailureKind → String
  | .badMagic => "bad magic"
  | .unsupportedVersion => "unsupported version"
  | .truncatedInput => "truncated input"
  | .invalidEncoding => "invalid encoding"
  | .malformedLine => "malformed line"
  | .counterCountMismatch => "counter count mismatch"
  | .corruptIndex => "corrupt index"
  | .corruptMapping => "corrupt coverage mapping"
  | .profileBinaryMismatch => "profile and binary are out of sync"
  | .writeFailed => "failed to write"

structure Failure where
  kind : FailureKind
  offset : Option Nat := none
  line : Option Nat := none
  function : Option FunctionId := none
  foundVersion : Option UInt64 := none
  detail : Option String := none
deriving DecidableEq, Repr

namespace Failure

def because (kind : FailureKind) (detail : String) : Failure := { kind, detail := some detail }

def unsupported (found : UInt64) : Failure :=
  { kind := .unsupportedVersion, foundVersion := some found }

def atOffset (offset : Nat) (failure : Failure) : Failure := { failure with offset := some offset }

def orAtOffset (offset : Nat) (failure : Failure) : Failure :=
  { failure with offset := failure.offset <|> some offset }

def atLine (line : Nat) (failure : Failure) : Failure := { failure with line := some line }

def inFunction (id : FunctionId) (failure : Failure) : Failure :=
  { failure with function := some id }

def supportedVersions : String :=
  "[" ++ ", ".intercalate (Version.all.map fun version => Numeral.decimal version.tag) ++ "]"

def message (failure : Failure) : String :=
  let found := match failure.foundVersion with
    | some found =>
        s!" {Numeral.decimal found.toNat} (expected one of {supportedVersions})"
    | none => ""
  let detail := match failure.detail with
    | some detail => s!": {detail}"
    | none => ""
  let function := match failure.function with
    | some id => s!" in function `{id.name}` (hash {Numeral.hex id.hash.toNat})"
    | none => ""
  let line := match failure.line with
    | some line => s!" on line {Numeral.decimal line}"
    | none => ""
  let offset := match failure.offset with
    | some offset => s!" at offset {Numeral.hex offset}"
    | none => ""
  failure.kind.text ++ found ++ detail ++ function ++ line ++ offset

end Failure

def Version.require (tag : UInt64) : Except Failure Version :=
  match Version.ofTag? tag.toNat with
  | some version => .ok version
  | none => .error (.unsupported tag)

end ExecCounts
