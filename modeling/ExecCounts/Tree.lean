import ExecCounts.Coverage.Report
import ExecCounts.Mapping
import ExecCounts.Profile

set_option autoImplicit false

namespace ExecCounts

inductive Tree where
  | null
  | flag (value : Bool)
  | number (value : Nat)
  | text (value : String)
  | list (items : List Tree)
  | record (fields : List (String × Tree))
deriving Repr, Inhabited

namespace Tree

variable {α : Type}

def ofList (form : α → Tree) (items : List α) : Tree := .list (items.map form)

def ofOption (form : α → Tree) : Option α → Tree
  | none => .null
  | some value => form value

def ofWord (n : UInt64) : Tree := .number n.toNat

def ofIndex (n : UInt32) : Tree := .number n.toNat

def ofBytes (bytes : Bytes) : Tree := ofList (fun b => .number b.toNat) bytes

def ofFunctionId (id : FunctionId) : Tree :=
  .record [("name", .text id.name), ("hash", ofWord id.hash)]

def ofSkipped (skipped : Skipped) : Tree :=
  .record [("function", ofOption ofFunctionId skipped.function), ("reason", .text skipped.reason)]

def ofVersion (version : Version) : Tree := .text ("Llvm" ++ Numeral.decimal version.tag)

def ofFormat : Format → Tree
  | .raw => .text "Raw"
  | .text => .text "Text"
  | .indexed => .text "Indexed"

def ofVariant (variant : Variant) : Tree :=
  .record [("ir", .flag variant.ir), ("cs", .flag variant.contextSensitive),
    ("entry_first", .flag variant.entryFirst)]

def ofObservation (seen : Observation) : Tree :=
  .record [("value", ofWord seen.value), ("count", ofWord seen.count)]

def ofValues (values : ValueProfile) : Tree :=
  .record [("indirect_call_targets", ofList (ofList ofObservation) values.indirectCallTargets),
    ("mem_op_sizes", ofList (ofList ofObservation) values.memOpSizes)]

def ofRecord (record : FunctionRecord) : Tree :=
  .record [("name", .text record.name), ("hash", ofWord record.hash),
    ("counters", ofList ofWord record.counters), ("values", ofOption ofValues record.values)]

def ofProfile (profile : Profile) : Tree :=
  .record [("format", ofFormat profile.format), ("version", ofOption ofVersion profile.version),
    ("kind", ofVariant profile.variant), ("records", ofList ofRecord profile.records),
    ("binary_ids", ofList ofBytes profile.binaryIds),
    ("skipped", ofList ofSkipped profile.skipped)]

def ofExpr : Expr → Tree
  | .zero => .text "Zero"
  | .counter index => .record [("Counter", ofIndex index)]
  | .add left right => .record [("Add", .list [ofExpr left, ofExpr right])]
  | .subtract left right => .record [("Subtract", .list [ofExpr left, ofExpr right])]

def ofRegionKind : RegionKind → Tree
  | .code => .text "Code"
  | .expansion => .text "Expansion"
  | .skipped => .text "Skipped"
  | .gap => .text "Gap"
  | .branch => .text "Branch"

def ofRegion (region : Region) : Tree :=
  .record [("file_id", ofIndex region.fileId), ("start_line", ofIndex region.start.line),
    ("start_col", ofIndex region.start.column), ("end_line", ofIndex region.stop.line),
    ("end_col", ofIndex region.stop.column), ("kind", ofRegionKind region.kind),
    ("counter", ofExpr region.counter), ("false_counter", ofOption ofExpr region.falseCounter),
    ("expanded_file_id", ofOption ofIndex region.expandedFileId)]

def ofFunctionMapping (mapping : FunctionMapping) : Tree :=
  .record [("function_name", .text mapping.name), ("structural_hash", ofWord mapping.hash),
    ("version", ofVersion mapping.version), ("filenames", ofList .text mapping.filenames),
    ("regions", ofList ofRegion mapping.regions)]

def ofMappings (mappings : Mappings) : Tree :=
  .record [("functions", ofList ofFunctionMapping mappings.functions),
    ("skipped", ofList ofSkipped mappings.skipped)]

def ofLine (line : LineCoverage) : Tree :=
  .record [("filename", .text line.filename), ("line_number", .number line.number),
    ("execution_count", ofWord line.count), ("is_executable", .flag line.isExecutable)]

def ofFunctionCoverage (coverage : FunctionCoverage) : Tree :=
  .record [("name", .text coverage.name), ("hash", ofWord coverage.hash),
    ("filename", ofOption .text coverage.filename),
    ("execution_count", ofWord coverage.executionCount), ("has_profile", .flag coverage.hasProfile)]

def ofReport (report : Report) : Tree :=
  .record [("lines", ofList ofLine report.lines),
    ("functions", ofList ofFunctionCoverage report.functions),
    ("skipped", ofList ofSkipped report.skipped)]

end Tree

end ExecCounts
