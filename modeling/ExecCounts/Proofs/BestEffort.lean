import ExecCounts.Proofs.Indexed.Declared
import ExecCounts.Proofs.Mapping.Declared
import ExecCounts.Proofs.Raw.Declared
import ExecCounts.TextProfile.Reader

set_option autoImplicit false

namespace ExecCounts

theorem TextProfile.parse_refines (data : Bytes) :
    Refines (fun policy => TextProfile.parse policy data) Profile.skipped :=
  Refines.after fun body => body.2.settle_refines _ _ fun _ => rfl

theorem best_effort_refines_strict (data : Bytes) :
    Refines (fun policy => Raw.parse policy data) Profile.skipped ∧
    Refines (fun policy => TextProfile.parse policy data) Profile.skipped ∧
    Refines (fun policy => Indexed.parse policy data) Profile.skipped ∧
    Refines (fun policy => Mappings.parse policy data) Mappings.skipped ∧
    (∀ profile, Raw.parse .bestEffort data = .ok profile →
      Raw.headerNumber data .dataSize = some (profile.records.length + profile.skipped.length)) ∧
    (∀ profile, Indexed.parse .bestEffort data = .ok profile → ∃ version start,
      storedVersion .little data = some version ∧
        Indexed.headerNumber data .recordsOffset = some start ∧
        Indexed.headerNumber data .countersOffset = some (start +
          (profile.records.length + profile.skipped.length) *
            version.indexedLayout.recordSize)) ∧
    (∀ mappings, Mappings.parse .bestEffort data = .ok mappings →
      mappings.functions.length + mappings.skipped.length =
        (Section.declaredCounts data data.length 0).sum) :=
  ⟨Raw.parse_refines data, TextProfile.parse_refines data, Indexed.parse_refines data,
    Mappings.parse_refines data, Raw.parse_accounts data, Indexed.parse_accounts data,
    Mappings.parse_accounts data⟩

/-- A section of two functions, of which the first has no data at all. -/
def emptyFunction : Bytes :=
  Section.magic .little ++ [11, 0, 0, 0, 2, 0, 0, 0, 1, 0, 0, 0, 0, 0, 0, 0, 0, 0, 0, 0] ++
    [1, 102, 7, 0, 0, 0, 0, 0, 0, 0, 0, 0, 0, 0] ++
    [1, 103, 9, 0, 0, 0, 0, 0, 0, 0, 2, 0, 0, 0, 0, 0]

theorem best_effort_refines_strict_empty_function : ∃ mappings failure rest,
    Mappings.parse .strict emptyFunction = .error failure ∧
      Mappings.parse .bestEffort emptyFunction = .ok mappings ∧
      mappings.skipped = .ofFailure failure :: rest ∧
      mappings.functions.length + mappings.skipped.length = 2 := by
  have refused : (Mappings.parse .strict emptyFunction).isOk = false := by decide +kernel
  have settled : (Mappings.parse .bestEffort emptyFunction).isOk = true := by decide +kernel
  have declared : (Section.declaredCounts emptyFunction emptyFunction.length 0).sum = 2 := by
    decide +kernel
  obtain ⟨-, -, -, refines, -, -, accounts⟩ := best_effort_refines_strict emptyFunction
  cases strict : Mappings.parse .strict emptyFunction with
  | ok mappings =>
      rw [strict] at refused
      cases refused
  | error failure =>
      obtain ⟨other, failed⟩ | ⟨mappings, rest, read, skipped⟩ := refines.skips failure strict
      · rw [failed] at settled
        cases settled
      · exact ⟨mappings, failure, rest, rfl, read, skipped, declared ▸ accounts mappings read⟩

end ExecCounts
