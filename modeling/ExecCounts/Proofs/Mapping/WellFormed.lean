import ExecCounts.Proofs.Mapping.Sections
import ExecCounts.Proofs.Mapping.Unfolding
import Mathlib.Algebra.GroupWithZero.Nat

set_option autoImplicit false

namespace ExecCounts

namespace Expr

def nonzeroNodes : Expr → Nat
  | .zero => 0
  | .counter _ => 1
  | .add left right => left.nonzeroNodes + right.nonzeroNodes + 1
  | .subtract left right => left.nonzeroNodes + right.nonzeroNodes + 1

def totalNonzeroNodes (exprs : List Expr) : Nat := (exprs.map nonzeroNodes).sum

theorem total_nonzero_nodes_append (first second : List Expr) :
    totalNonzeroNodes (first ++ second) = totalNonzeroNodes first + totalNonzeroNodes second := by
  rw [totalNonzeroNodes, List.map_append, List.sum_append]
  rfl

theorem nonzero_nodes_le (expr : Expr) : expr.nonzeroNodes ≤ expr.size := by
  induction expr with
  | zero => exact Nat.zero_le _
  | counter index => exact Nat.le_refl _
  | add left right leftIh rightIh | subtract left right leftIh rightIh =>
      rw [nonzeroNodes, size]
      omega

end Expr

namespace Region

structure WellFormed (version : Version) (fileCount : Nat) (region : Region) : Prop where
  inFile : region.fileId.toNat < fileCount
  forward : region.start.line < region.stop.line ∨
    region.start.line = region.stop.line ∧ region.start.column ≤ region.stop.column
  columns : region.stop.column.toNat < 2 ^ 31 ∨
    region.start.column = 1 ∧ region.stop.column = 0xFFFFFFFF
  someColumn : ¬ (region.start.column = 0 ∧ region.stop.column = 0)
  expanded : ∀ id, region.expandedFileId = some id → id.toNat < fileCount
  expansion : region.kind = .expansion → region.expandedFileId.isSome = true
  branch : region.kind = .branch → 12 ≤ version.tag ∧ region.falseCounter.isSome = true
  shallow : ∀ expr ∈ region.counters, expr.depth ≤ 64

def Sorted (regions : List Region) : Prop :=
  regions.Pairwise fun a b =>
    a.fileId < b.fileId ∨ a.fileId = b.fileId ∧ a.start.line ≤ b.start.line

end Region

structure FunctionMapping.WellFormed (dataSize : Nat) (mapping : FunctionMapping) : Prop where
  regions : ∀ region ∈ mapping.regions, region.WellFormed mapping.version mapping.filenames.length
  sorted : Region.Sorted mapping.regions
  affordable : Expr.totalNonzeroNodes (mapping.regions.flatMap Region.counters) ≤
    min (16 * dataSize) (2 ^ 16)

namespace Section

namespace Head

def counters (head : Head) : List Expr := head.counter :: head.falseCounter.toList

structure Fits (scope : Scope) (head : Head) : Prop where
  expanded : ∀ id, head.expandedFileId = some id → id.toNat < scope.fileCount
  expansion : head.kind = .expansion → head.expandedFileId.isSome = true
  branch : head.kind = .branch →
    scope.layout.branchRegions = true ∧ head.falseCounter.isSome = true
  shallow : ∀ expr ∈ head.counters, expr.depth ≤ Expr.maxDepth

theorem fits_plain (scope : Scope) (kind : RegionKind) (counter : Expr)
    (plain : kind = .code ∨ kind = .skipped) (shallow : counter.depth ≤ Expr.maxDepth) :
    Fits scope ⟨kind, counter, none, none⟩ where
  expanded := nofun
  expansion := by
    obtain rfl | rfl := plain <;> exact nofun
  branch := by
    obtain rfl | rfl := plain <;> exact nofun
  shallow := by
    intro expr listed
    rw [List.mem_singleton.mp listed]
    exact shallow

end Head

theorem resolve_fits (table : ExprTable) (encoded : UInt64) (budget : Nat) :
    Read.Ensures (Read.ofExcept (table.resolve encoded budget)) fun result =>
      result.1.depth ≤ Expr.maxDepth ∧ result.1.nonzeroNodes + result.2 ≤ budget := by
  rintro cursor ⟨expr, left⟩ after ran
  obtain ⟨resolved, -⟩ := (Read.of_except_ran_iff _ _).mp ran
  obtain ⟨-, shallow, spent⟩ := (ExprTable.resolve_ok_iff _ _ _ _).mp resolved
  have fewer := expr.nonzero_nodes_le
  dsimp only
  exact ⟨shallow, by omega⟩

theorem read_head_fits (scope : Scope) (budget : Nat) : Read.Ensures (readHead scope budget)
    fun result => result.1.Fits scope ∧
      Expr.totalNonzeroNodes result.1.counters + result.2 ≤ budget := by
  rintro cursor ⟨head, left⟩ after ran
  obtain ⟨start, atStart, -, ran⟩ := (Read.bind_ran_iff _ _ _).mp ran
  obtain ⟨encoded, afterNumber, -, ran⟩ := (Read.bind_ran_iff _ _ _).mp ran
  dsimp only at ran ⊢
  split at ran
  · -- a counter
    obtain ⟨⟨counter, rest⟩, afterCounter, counterRan, ran⟩ := (Read.bind_ran_iff _ _ _).mp ran
    obtain ⟨shallow, spent⟩ := resolve_fits _ _ _ _ _ _ counterRan
    cases ((Read.pure_ran_iff _ _).mp ran).1
    exact ⟨Head.fits_plain scope .code counter (.inl rfl) shallow, spent⟩
  · split at ran
    · -- an expansion
      obtain ⟨known, ran⟩ := Read.check_ran ran
      cases ((Read.pure_ran_iff _ _).mp ran).1
      refine ⟨⟨?_, fun _ => rfl, nofun, ?_⟩, Nat.le_of_eq (Nat.zero_add _)⟩
      · intro id same
        cases same
        exact Nat.lt_of_le_of_lt (Nat.mod_le _ _) (Nat.lt_of_not_le known)
      · intro expr listed
        rw [List.mem_singleton.mp listed]
        exact Nat.zero_le _
    · -- a kind of region
      split at ran
      · cases ((Read.pure_ran_iff _ _).mp ran).1
        exact ⟨Head.fits_plain scope .code .zero (.inl rfl) (Nat.zero_le _),
          Nat.le_of_eq (Nat.zero_add _)⟩
      · split at ran
        · cases ((Read.pure_ran_iff _ _).mp ran).1
          exact ⟨Head.fits_plain scope .skipped .zero (.inr rfl) (Nat.zero_le _),
            Nat.le_of_eq (Nat.zero_add _)⟩
        · split at ran
          · rename_i supported
            obtain ⟨first, afterFirst, -, ran⟩ := (Read.bind_ran_iff _ _ _).mp ran
            obtain ⟨⟨counter, between⟩, afterCounter, counterRan, ran⟩ :=
              (Read.bind_ran_iff _ _ _).mp ran
            obtain ⟨second, afterSecond, -, ran⟩ := (Read.bind_ran_iff _ _ _).mp ran
            obtain ⟨⟨falseCounter, rest⟩, afterBoth, falseRan, ran⟩ :=
              (Read.bind_ran_iff _ _ _).mp ran
            obtain ⟨shallow, spent⟩ := resolve_fits _ _ _ _ _ _ counterRan
            obtain ⟨falseShallow, falseSpent⟩ := resolve_fits _ _ _ _ _ _ falseRan
            cases ((Read.pure_ran_iff _ _).mp ran).1
            refine ⟨⟨nofun, nofun, fun _ => ⟨supported.2, rfl⟩, ?_⟩, ?_⟩
            · exact List.forall_mem_cons.mpr ⟨shallow, List.forall_mem_singleton.mpr falseShallow⟩
            · change counter.nonzeroNodes + (falseCounter.nonzeroNodes + 0) + rest ≤ budget
              dsimp only at spent falseSpent
              omega
          · cases ran

theorem load_columns_fit (first last : UInt32) :
    ((loadColumns first last).2.2.toNat < 2 ^ 31 ∨
      (loadColumns first last).2.1 = 1 ∧ (loadColumns first last).2.2 = 0xFFFFFFFF) ∧
    ¬ ((loadColumns first last).2.1 = 0 ∧ (loadColumns first last).2.2 = 0) := by
  have small := last.toNat_lt
  have unmarked : (if gapColumn ≤ last.toNat then UInt32.ofNat (last.toNat - gapColumn)
      else last).toNat < 2 ^ 31 := by
    split
    · rw [UInt32.toNat_ofNat_of_lt' (by simp only [UInt32.size]; omega), gapColumn]
      omega
    · simp only [gapColumn] at *
      omega
  rw [loadColumns]
  generalize (if gapColumn ≤ last.toNat then UInt32.ofNat (last.toNat - gapColumn) else last) = column
    at unmarked ⊢
  by_cases whole : first = 0 ∧ column = 0
  · have one : (1 : UInt32) ≠ 0 := by decide
    rw [if_pos whole]
    exact ⟨.inr ⟨rfl, rfl⟩, fun zeros => absurd zeros.1 one⟩
  · rw [if_neg whole]
    exact ⟨.inl unmarked, whole⟩

theorem next_line_le {what : String} {line distance next : UInt32}
    (found : nextLine what line distance = .ok next) : line ≤ next := by
  rw [nextLine] at found
  split at found
  · rename_i small
    cases found
    rw [UInt32.le_iff_toNat_le, UInt32.toNat_add, Nat.mod_eq_of_lt small]
    exact Nat.le_add_right _ _
  · cases found

theorem read_region_fits (scope : Scope) (version : Version) (fileId line : UInt32) (budget : Nat)
    (layout : scope.layout = version.mappingLayout) (known : fileId.toNat < scope.fileCount) :
    Read.Ensures (readRegion scope fileId line budget) fun result =>
      result.1.WellFormed version scope.fileCount ∧ result.1.fileId = fileId ∧
        line ≤ result.1.start.line ∧
        Expr.totalNonzeroNodes result.1.counters + result.2 ≤ budget := by
  rintro cursor ⟨region, left⟩ after ran
  obtain ⟨⟨head, rest⟩, afterHead, headRan, ran⟩ := (Read.bind_ran_iff _ _ _).mp ran
  obtain ⟨lineDelta, afterLine, -, ran⟩ := (Read.bind_ran_iff _ _ _).mp ran
  obtain ⟨startColumn, afterStart, -, ran⟩ := (Read.bind_ran_iff _ _ _).mp ran
  obtain ⟨lineCount, afterCount, -, ran⟩ := (Read.bind_ran_iff _ _ _).mp ran
  obtain ⟨endColumn, afterEnd, -, ran⟩ := (Read.bind_ran_iff _ _ _).mp ran
  have columns := load_columns_fit startColumn endColumn
  generalize loadColumns startColumn endColumn = loaded at ran columns
  obtain ⟨isGap, first, last⟩ := loaded
  obtain ⟨startLine, afterStartLine, startRan, ran⟩ := (Read.bind_ran_iff _ _ _).mp ran
  obtain ⟨endLine, afterEndLine, endRan, ran⟩ := (Read.bind_ran_iff _ _ _).mp ran
  obtain ⟨formed, ran⟩ := Read.check_ran ran
  cases ((Read.pure_ran_iff _ _).mp ran).1
  obtain ⟨fits, spent⟩ := read_head_fits _ _ _ _ _ headRan
  have onward := next_line_le ((Read.of_except_ran_iff _ _).mp startRan).1
  rw [Bool.not_eq_true', Bool.not_eq_false, Region.isWellFormed, Position.le, Bool.or_eq_true,
    Bool.and_eq_true, decide_eq_true_eq, decide_eq_true_eq, beq_iff_eq] at formed
  refine ⟨⟨known, formed, columns.1, columns.2, fits.expanded, ?_, ?_, fits.shallow⟩, rfl, onward, spent⟩
  · intro kind
    dsimp only at kind
    split at kind
    · cases kind
    · exact fits.expansion kind
  · intro kind
    dsimp only at kind
    split at kind
    · cases kind
    · obtain ⟨supported, present⟩ := fits.branch kind
      refine ⟨?_, present⟩
      rw [layout] at supported
      revert supported
      cases version <;> decide

theorem read_regions_fit (scope : Scope) (version : Version) (fileId : UInt32) (n : Nat)
    (line : UInt32) (budget : Nat) (layout : scope.layout = version.mappingLayout)
    (known : fileId.toNat < scope.fileCount) :
    Read.Ensures (readRegions scope fileId n line budget) fun result =>
      (∀ region ∈ result.1, region.WellFormed version scope.fileCount ∧ region.fileId = fileId ∧
        line ≤ region.start.line) ∧
      Region.Sorted result.1 ∧
      Expr.totalNonzeroNodes (result.1.flatMap Region.counters) + result.2 ≤ budget := by
  induction n generalizing line budget with
  | zero => exact Read.pure_ensures ⟨nofun, .nil, Nat.le_of_eq (Nat.zero_add _)⟩
  | succ n ih =>
      rintro cursor ⟨regions, left⟩ after ran
      obtain ⟨⟨first, between⟩, afterFirst, firstRan, ran⟩ := (Read.bind_ran_iff _ _ _).mp ran
      obtain ⟨⟨others, rest⟩, afterOthers, othersRan, ran⟩ := (Read.bind_ran_iff _ _ _).mp ran
      cases ((Read.pure_ran_iff _ _).mp ran).1
      obtain ⟨formed, own, below, spent⟩ :=
        read_region_fits scope version fileId line budget layout known _ _ _ firstRan
      obtain ⟨each, sorted, othersSpent⟩ := ih first.start.line between _ _ _ othersRan
      refine ⟨List.forall_mem_cons.mpr ⟨⟨formed, own, below⟩, fun region listed => ?_⟩,
        .cons (fun region listed => ?_) sorted, ?_⟩
      · obtain ⟨formed, same, further⟩ := each region listed
        exact ⟨formed, same, UInt32.le_trans below further⟩
      · obtain ⟨-, same, further⟩ := each region listed
        exact .inr ⟨own.trans same.symm, further⟩
      · rw [List.flatMap_cons, Expr.total_nonzero_nodes_append]
        dsimp only at spent othersSpent ⊢
        change Expr.totalNonzeroNodes first.counters + between ≤ budget at spent
        omega

theorem read_files_fit (scope : Scope) (version : Version) (n fileId budget : Nat)
    (layout : scope.layout = version.mappingLayout) (few : scope.fileCount ≤ UInt32.size)
    (known : fileId + n ≤ scope.fileCount) :
    Read.Ensures (readFiles scope n fileId budget) fun regions =>
      (∀ region ∈ regions, region.WellFormed version scope.fileCount ∧
        fileId ≤ region.fileId.toNat) ∧
      Region.Sorted regions ∧
      Expr.totalNonzeroNodes (regions.flatMap Region.counters) ≤ budget := by
  induction n generalizing fileId budget with
  | zero => exact Read.pure_ensures ⟨nofun, .nil, Nat.zero_le _⟩
  | succ n ih =>
      rintro cursor regions after ran
      obtain ⟨count, afterCount, -, ran⟩ := (Read.bind_ran_iff _ _ _).mp ran
      obtain ⟨⟨own, between⟩, afterOwn, ownRan, ran⟩ := (Read.bind_ran_iff _ _ _).mp ran
      obtain ⟨others, afterOthers, othersRan, ran⟩ := (Read.bind_ran_iff _ _ _).mp ran
      cases ((Read.pure_ran_iff _ _).mp ran).1
      have number : (UInt32.ofNat fileId).toNat = fileId :=
        UInt32.toNat_ofNat_of_lt' (by omega)
      obtain ⟨ownEach, ownSorted, ownSpent⟩ := read_regions_fit scope version _ _ _ _ layout
        (by rw [number]; omega) _ _ _ ownRan
      obtain ⟨othersEach, othersSorted, othersSpent⟩ :=
        ih (fileId + 1) between (by omega) _ _ _ othersRan
      refine ⟨fun region listed => ?_, List.pairwise_append.mpr
        ⟨ownSorted, othersSorted, fun region listed other otherListed => .inl ?_⟩, ?_⟩
      · obtain ownListed | listed := List.mem_append.mp listed
        · obtain ⟨formed, same, -⟩ := ownEach region ownListed
          exact ⟨formed, by rw [same, number]⟩
        · obtain ⟨formed, above⟩ := othersEach region listed
          exact ⟨formed, Nat.le_of_succ_le above⟩
      · obtain ⟨-, same, -⟩ := ownEach region listed
        obtain ⟨-, above⟩ := othersEach other otherListed
        rw [same, UInt32.lt_iff_toNat_lt, number]
        exact above
      · rw [List.flatMap_append, Expr.total_nonzero_nodes_append]
        dsimp only at ownSpent othersSpent
        omega

theorem read_filename_moves (filenames : List String) (cursor : Cursor) (filename : String)
    (after : Cursor) (ran : readFilename filenames cursor = .ok filename after) :
    after.data = cursor.data ∧ cursor.offset < after.offset := by
  obtain ⟨index, afterIndex, indexRan, ran⟩ := (Read.bind_ran_iff _ _ _).mp ran
  obtain ⟨used, decoded, moved⟩ := Read.uleb_ran indexRan
  have some := Leb128.decode_pos _ _ _ decoded
  cases found : filenames[index.toNat]? with
  | none =>
      rw [found] at ran
      cases ran
  | some name =>
      rw [found] at ran
      obtain ⟨-, rfl⟩ := (Read.pure_ran_iff _ _).mp ran
      exact ⟨moved.data, by rw [moved.offset]; omega⟩

theorem read_function_fits (version : Version) (filenames : List String) (cursor after : Cursor)
    (files : List String) (regions : List Region) (small : cursor.data.length < UInt32.size)
    (ran : readFunction version.mappingLayout filenames cursor = .ok (files, regions) after) :
    (∀ region ∈ regions, region.WellFormed version files.length) ∧ Region.Sorted regions ∧
      Expr.totalNonzeroNodes (regions.flatMap Region.counters) ≤
        ExprTable.budget cursor.data.length := by
  rw [readFunction, Read.run_get] at ran
  obtain ⟨fileCount, afterCount, countRan, ran⟩ := (Read.bind_ran_iff _ _ _).mp ran
  obtain ⟨listed, afterFiles, filesRan, ran⟩ := (Read.bind_ran_iff _ _ _).mp ran
  obtain ⟨exprCount, afterExprCount, -, ran⟩ := (Read.bind_ran_iff _ _ _).mp ran
  obtain ⟨table, afterTable, -, ran⟩ := (Read.bind_ran_iff _ _ _).mp ran
  obtain ⟨found, afterRegions, regionsRan, ran⟩ := (Read.bind_ran_iff _ _ _).mp ran
  obtain ⟨ended, atEnd, -, ran⟩ := (Read.bind_ran_iff _ _ _).mp ran
  split at ran
  · cases ran
  · cases ((Read.pure_ran_iff _ _).mp ran).1
    obtain ⟨used, -, countMoved⟩ := Read.uleb_ran countRan
    obtain ⟨sameData, onward⟩ := Read.times_onward (read_filename_moves filenames) filesRan
    -- Every file takes a byte at least, so that there are fewer files than file ids.
    have few : files.length ≤ cursor.data.length := by
      have within := afterFiles.offset_le
      rw [sameData, countMoved.data] at within
      omega
    obtain ⟨each, sorted, spent⟩ := read_files_fit _ version files.length 0 _ rfl
      (Nat.le_of_lt (Nat.lt_of_le_of_lt few small)) (Nat.le_of_eq (Nat.zero_add _)) _ _ _ regionsRan
    exact ⟨fun region listed => (each region listed).1, sorted, spent⟩

theorem decoded_well_formed (place : Place) (mapping : FunctionMapping)
    (decodes : Decodes place (.ok mapping)) :
    mapping.id = place.id ∧ mapping.WellFormed place.size := by
  obtain ⟨preamble, record, decoded, named, size, small⟩ := decodes
  rw [decodeRecord] at decoded
  split at decoded
  · rename_i filenames regions ran
    cases decoded
    obtain ⟨after, ran⟩ := (Read.read_ok_iff _ _).mp ran
    obtain ⟨each, sorted, spent⟩ := read_function_fits _ _ _ _ _ _ (size ▸ small) ran
    rw [size] at spent
    exact ⟨named.symm, each, sorted, spent⟩
  · cases decoded

end Section

namespace Mappings

theorem parsed_well_formed (policy : Policy) (data : Bytes) (mappings : Mappings)
    (parsed : parse policy data = .ok mappings) :
    ∃ places, places.Sublist (Section.declaredPlaces data data.length 0) ∧
      List.Forall₂ (fun place mapping => mapping.id = place.id ∧ mapping.WellFormed place.size)
        places mappings.functions := by
  rw [parse, bind_ok_iff] at parsed
  obtain ⟨⟨functions, skipped⟩, settled, same⟩ := parsed
  cases (pure_ok_iff _ _).mp same
  obtain ⟨read, -, -, ⟨⟩, ended⟩ := Transcript.settle_ok_parts policy _ _ _ settled
  obtain ⟨places, listed, decoded⟩ := Transcript.values_forall₂
    (Section.sections_decoded data.length (Cursor.little data) ended)
  refine ⟨places, listed, ?_⟩
  rw [read]
  exact decoded.imp fun place mapping holds => Section.decoded_well_formed place mapping holds.1

/-- A function with a branch, an expansion and a gap, and one whose data is no mapping. -/
def kindsSection : Bytes :=
  Section.magic .little ++ [12, 0, 0, 0, 2, 0, 0, 0, 5, 0, 0, 0, 1, 2, 0, 1, 97, 0, 0, 0] ++
    [1, 102, 7, 0, 0, 0, 0, 0, 0, 0, 27, 0, 0, 0, 1, 0, 1, 1, 5, 3] ++
      [32, 3, 1, 1, 1, 0, 4, 4, 1, 1, 0, 2, 5, 0, 3, 1, 0x81, 0x80, 0x80, 0x80, 8] ++
    [1, 103, 9, 0, 0, 0, 0, 0, 0, 0, 1, 0, 0, 0, 1]

theorem parsed_well_formed_kinds : ∃ mappings places,
    parse .bestEffort kindsSection = .ok mappings ∧ mappings.skipped.length = 1 ∧
      (mappings.functions.map fun mapping => mapping.regions.map Region.kind) =
        [[.branch, .expansion, .gap]] ∧
      places.Sublist (Section.declaredPlaces kindsSection kindsSection.length 0) ∧
      List.Forall₂ (fun place mapping => mapping.id = place.id ∧ mapping.WellFormed place.size)
        places mappings.functions := by
  have found : (parse .bestEffort kindsSection).map (fun mappings =>
      (mappings.skipped.length,
        mappings.functions.map fun mapping => mapping.regions.map Region.kind)) =
      .ok (1, [[.branch, .expansion, .gap]]) := by decide +kernel
  obtain ⟨mappings, parsed, read⟩ := (map_ok_iff _ _ _).mp found
  obtain ⟨skipped, kinds⟩ := Prod.mk.inj read
  obtain ⟨places, listed, formed⟩ := parsed_well_formed .bestEffort kindsSection mappings parsed
  exact ⟨mappings, places, parsed, skipped, kinds, listed, formed⟩

end Mappings

end ExecCounts
