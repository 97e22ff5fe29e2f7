import ExecCounts.Value

set_option autoImplicit false

namespace ExecCounts

structure FunctionRecord where
  name : String
  hash : UInt64
  -- One count for each instrumented place, the function's entry first.
  counters : List Count
  values : Option ValueProfile
deriving DecidableEq, Repr

namespace FunctionRecord

def id (record : FunctionRecord) : FunctionId := ⟨record.name, record.hash⟩

def contextBit : UInt64 := 0x1000000000000000

def isContextSensitive (record : FunctionRecord) : Bool := record.hash &&& contextBit != 0

def markContextSensitive (record : FunctionRecord) : FunctionRecord :=
  { record with hash := record.hash ||| contextBit }

def siteCount (record : FunctionRecord) (kind : ValueKind) : Nat :=
  match record.values with
  | some values => (values.sites kind).length
  | none => 0

def entryCount (record : FunctionRecord) : Option Count := record.counters.head?

def normalize (record : FunctionRecord) : FunctionRecord :=
  { record with values := record.values.map ValueProfile.normalize }

/-- Adds the counts of another record of the same function. If the numbers of counters differ
nothing is added; if the value profiles do not fit together the counters are added all the same. -/
def merge (ours theirs : FunctionRecord) : Attempt FunctionRecord :=
  if ours.counters.length = theirs.counters.length then
    let counted := { ours with counters := List.zipWith Count.add ours.counters theirs.counters }
    match ours.values, theirs.values with
    | some mine, some other =>
        match mine.merge other with
        | ⟨merged, none⟩ => ⟨{ counted with values := some merged.normalize }, none⟩
        | ⟨merged, some failure⟩ =>
            ⟨{ counted with values := some merged }, some (failure.inFunction ours.id)⟩
    | some mine, none => ⟨{ counted with values := some mine.normalize }, none⟩
    | none, some other => ⟨{ counted with values := some other.normalize }, none⟩
    | none, none => ⟨counted, none⟩
  else
    let detail := Numeral.decimal ours.counters.length ++ " counters cannot be merged with " ++
      Numeral.decimal theirs.counters.length
    ⟨ours, some ((Failure.because .counterCountMismatch detail).inFunction ours.id)⟩

end FunctionRecord

end ExecCounts
