import ExecCounts.Profile
import Std.Data.ExtTreeMap

set_option autoImplicit false

namespace ExecCounts

namespace Profile

abbrev RecordMap := Std.ExtTreeMap FunctionId FunctionRecord

def addRecord (merged : RecordMap) (record : FunctionRecord) : Except Failure RecordMap :=
  match merged[record.id]? with
  | none => .ok (merged.insert record.id record.normalize)
  | some before =>
      match before.merge record with
      | ⟨sum, none⟩ => .ok (merged.insert record.id sum)
      | ⟨_, some failure⟩ => .error failure

def mergeRecords (records : List FunctionRecord) : Except Failure (List FunctionRecord) := do
  let merged ← records.foldlM addRecord ∅
  return merged.toList.map Prod.snd

def skippedBefore (a b : Skipped) : Bool :=
  ((compare a.function b.function).then (compare a.reason b.reason)).isLE

def combine (ours theirs : Profile) : Except Failure Profile := do
  let records ← mergeRecords (ours.records ++ theirs.records)
  return {
    format := ours.format.latest theirs.format
    version := Version.newest ours.version theirs.version
    variant := ours.variant.union theirs.variant
    records
    binaryIds := ascending (ours.binaryIds ++ theirs.binaryIds)
    skipped := (ours.skipped ++ theirs.skipped).mergeSort skippedBefore }

/-- Merges another profile into this one. Where this fails, this one stays as it was. -/
def merge (ours theirs : Profile) : Attempt Profile :=
  match ours.combine theirs with
  | .ok combined => ⟨combined, none⟩
  | .error failure => ⟨ours, some failure⟩

/-- Merges any number of profiles. Without any, the result is an empty indexed profile. -/
def mergeAll : List Profile → Except Failure Profile
  | [] => .ok (empty .indexed)
  | profiles => profiles.foldlM combine (empty .raw)

end Profile

end ExecCounts
