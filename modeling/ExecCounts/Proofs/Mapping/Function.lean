import ExecCounts.Proofs.Mapping.Filenames
import ExecCounts.Proofs.Mapping.Regions

set_option autoImplicit false

namespace ExecCounts.Section

theorem region_before_iff (a b : Region) : regionBefore a b = true ↔
    a.fileId.toNat < b.fileId.toNat ∨
      a.fileId.toNat = b.fileId.toNat ∧ a.start.line.toNat ≤ b.start.line.toNat := by
  simp only [regionBefore, Bool.or_eq_true, Bool.and_eq_true, decide_eq_true_eq, beq_iff_eq,
    UInt32.lt_iff_toNat_lt, UInt32.le_iff_toNat_le, ← UInt32.toNat_inj]

theorem sort_regions_sorted (regions : List Region) :
    (sortRegions regions).Pairwise fun a b => regionBefore a b := by
  apply List.pairwise_mergeSort
  · intro a b c first second
    rw [region_before_iff] at first second ⊢
    omega
  · intro a b
    rw [Bool.or_eq_true, region_before_iff, region_before_iff]
    omega

theorem sort_regions_perm (regions : List Region) : (sortRegions regions).Perm regions :=
  List.mergeSort_perm _ _

theorem own_regions_sorted (regions : List Region) (id : Nat) :
    ((ownRegions (sortRegions regions) id).map fun region => region.start.line.toNat).Pairwise
      (· ≤ ·) := by
  rw [List.pairwise_map]
  have sorted := (sort_regions_sorted regions).sublist
    (List.filter_sublist (p := fun region => region.fileId.toNat == id))
  refine sorted.imp_of_mem ?_
  intro a b aMember bMember before
  have aFile := beq_iff_eq.mp (List.mem_filter.mp aMember).2
  have bFile := beq_iff_eq.mp (List.mem_filter.mp bMember).2
  rw [region_before_iff] at before
  omega

theorem own_regions_first (regions : List Region) (fileId : Nat)
    (sorted : regions.Pairwise fun a b => a.fileId.toNat ≤ b.fileId.toNat)
    (least : ∀ region ∈ regions, fileId ≤ region.fileId.toNat) :
    ownRegions regions fileId ++ regions.filter (fun region => region.fileId.toNat != fileId) =
      regions := by
  induction regions with
  | nil => rfl
  | cons region others ih =>
      obtain ⟨first, othersSorted⟩ := List.pairwise_cons.mp sorted
      have othersLeast := fun other member => least other (List.mem_cons_of_mem _ member)
      by_cases own : region.fileId.toNat = fileId
      · have ends := ih othersSorted othersLeast
        simp only [ownRegions, List.filter_cons, own, beq_self_eq_true, bne_self_eq_false, if_true,
          Bool.false_eq_true, if_false, List.cons_append] at ends ⊢
        rw [ends]
      -- This region belongs to a later file, and so do all behind it.
      · have beyond := least region List.mem_cons_self
        have none : ownRegions (region :: others) fileId = [] := by
          rw [ownRegions, List.filter_eq_nil_iff]
          intro other member same
          have file := beq_iff_eq.mp same
          rcases List.mem_cons.mp member with rfl | later
          · exact own file
          · have after := first other later
            omega
        have all : (region :: others).filter (fun region => region.fileId.toNat != fileId) =
            region :: others := by
          rw [List.filter_eq_self]
          intro other member
          apply bne_iff_ne.mpr
          intro file
          rcases List.mem_cons.mp member with rfl | later
          · exact own file
          · have after := first other later
            omega
        rw [none, all, List.nil_append]

theorem by_file_sorted (regions : List Region) (fileId n : Nat)
    (sorted : regions.Pairwise fun a b => a.fileId.toNat ≤ b.fileId.toNat)
    (least : ∀ region ∈ regions, fileId ≤ region.fileId.toNat)
    (bounded : ∀ region ∈ regions, region.fileId.toNat < fileId + n) :
    byFile regions fileId n = regions := by
  induction n generalizing regions fileId with
  | zero =>
      cases regions with
      | nil => rfl
      | cons region others =>
          have above := least region List.mem_cons_self
          have below := bounded region List.mem_cons_self
          omega
  | succ n ih =>
      let others := regions.filter fun region => region.fileId.toNat != fileId
      have member_others : ∀ region ∈ others, region ∈ regions ∧ region.fileId.toNat ≠ fileId :=
        fun region member =>
          ⟨(List.mem_filter.mp member).1, bne_iff_ne.mp (List.mem_filter.mp member).2⟩
      have rest : byFile others (fileId + 1) n = others := by
        apply ih others (fileId + 1)
        · exact sorted.sublist List.filter_sublist
        · intro region member
          have above := least region (member_others region member).1
          have other := (member_others region member).2
          omega
        · intro region member
          have below := bounded region (member_others region member).1
          omega
      -- Leaving out the first file does not change what belongs to later files.
      have same : byFile regions (fileId + 1) n = byFile others (fileId + 1) n := by
        apply List.flatMap_congr
        intro id later
        have differs : id ≠ fileId := by
          have above := (List.mem_range'_1.mp later).1
          omega
        rw [ownRegions, ownRegions, List.filter_filter]
        apply List.filter_congr
        intro region _
        by_cases own : region.fileId.toNat = id
        · simp [own, differs]
        · simp [own]
      rw [by_file_succ, same, rest]
      exact own_regions_first regions fileId sorted least

theorem check_regions_ok (mapping : FunctionMapping) (regions : List Region)
    (ok : checkRegions mapping regions = .ok ()) : ∀ region ∈ regions,
      region.fileId.toNat < mapping.filenames.length ∧ region.isWellFormed := by
  induction regions with
  | nil => exact nofun
  | cons region others ih =>
      rw [checkRegions] at ok
      by_cases missing : mapping.filenames.length ≤ region.fileId.toNat
      · rw [if_pos missing] at ok
        cases ok
      · rw [if_neg missing] at ok
        by_cases formed : region.isWellFormed
        · rw [if_pos formed] at ok
          exact List.forall_mem_cons.mpr ⟨⟨Nat.not_le.mp missing, formed⟩, ih ok⟩
        · rw [if_neg formed] at ok
          cases ok

def operandBytes (pair : UInt64 × UInt64) : Bytes :=
  Leb128.encode pair.1.toNat ++ Leb128.encode pair.2.toNat

theorem operands_yield {order : ByteOrder} {start : Nat} {rest : Bytes} (pair : UInt64 × UInt64) :
    Read.Yields readOperands order start (operandBytes pair) rest pair := by
  apply Read.bind_yields (Read.uleb_word_yields pair.1)
  apply Read.bind_yields_last (Read.uleb_word_yields pair.2)
  exact Read.pure_yields pair

theorem filename_yields {order : ByteOrder} {start : Nat} {rest : Bytes} (names : List String)
    (index : Nat) (name : String) (fits : index < UInt64.size) (found : names[index]? = some name) :
    Read.Yields (readFilename names) order start (Leb128.encode index) rest name := by
  apply Read.bind_yields_last (Read.uleb_yields index fits)
  rw [UInt64.toNat_ofNat_of_lt' fits]
  dsimp only
  rw [found]
  exact Read.pure_yields name

def readTables (filenames : List String) : Read (List String × List (UInt64 × UInt64)) := do
  let fileCount ← Read.uleb
  let files ← times fileCount.toNat (readFilename filenames)
  let exprCount ← Read.uleb
  let table ← times exprCount.toNat readOperands
  return (files, table)

theorem read_function_eq (layout : MappingLayout) (filenames : List String) :
    readFunction layout filenames = (do
      let dataSize := (← get).data.length
      let (files, table) ← readTables filenames
      let regions ← readFiles ⟨layout, table.toArray, files.length⟩ files.length 0
        (ExprTable.budget dataSize)
      if !(← Read.atEnd) then
        throw ((Failure.because .invalidEncoding "trailing bytes after the regions").atOffset
          (← Read.position))
      return (files, regions)) := by
  simp only [readFunction, readTables, bind_assoc, pure_bind]

theorem tables_yield {order : ByteOrder} {start : Nat} {rest : Bytes} (filenames : List String)
    (position : String → Nat) (result : String → String) (names : List String) (table : ExprTable)
    (found : ∀ name ∈ filenames,
      position name < UInt64.size ∧ names[position name]? = some (result name))
    (fewFiles : filenames.length < UInt64.size) (smallTable : table.size < UInt64.size) :
    Read.Yields (readTables names) order start
      (Leb128.encode filenames.length ++ ((filenames.map position).flatMap Leb128.encode ++
        (Leb128.encode table.size ++ table.toList.flatMap operandBytes))) rest
      (filenames.map result, table.toList) := by
  apply Read.bind_yields (Read.uleb_yields _ fewFiles)
  rw [UInt64.toNat_ofNat_of_lt' fewFiles, List.flatMap_map]
  apply Read.bind_yields
  · apply Read.times_map_yields (fun name => Leb128.encode (position name)) result
    intro name member start rest
    exact filename_yields names (position name) (result name) (found name member).1
      (found name member).2
  · apply Read.bind_yields (Read.uleb_yields _ smallTable)
    rw [UInt64.toNat_ofNat_of_lt' smallTable, ← Array.length_toList]
    exact Read.bind_yields_last (Read.times_yields operandBytes table.toList fun pair _ _ _ =>
      operands_yield pair) (Read.pure_yields _)

theorem by_file_sort_regions (mapping : FunctionMapping)
    (inFiles : ∀ region ∈ sortRegions mapping.regions,
      region.fileId.toNat < mapping.filenames.length) :
    byFile (sortRegions mapping.regions) 0 mapping.filenames.length =
      sortRegions mapping.regions := by
  -- The files come one after the other in the sorted regions.
  apply by_file_sorted
  · refine (sort_regions_sorted mapping.regions).imp ?_
    intro a b before
    rw [region_before_iff] at before
    omega
  · exact fun _ _ => Nat.zero_le _
  · intro region member
    rw [Nat.zero_add]
    exact inFiles region member

structure DataWritten (layout : MappingLayout) (mapping : FunctionMapping) (indices : List Nat)
    (data : Bytes) (table : ExprTable) (regionBytes : Bytes) : Prop where
  inFiles : ∀ region ∈ sortRegions mapping.regions,
    region.fileId.toNat < mapping.filenames.length
  formed : ∀ region ∈ sortRegions mapping.regions, region.isWellFormed
  encoded : encodeFiles layout mapping (sortRegions mapping.regions) indices.length 0 #[] =
    .ok (regionBytes, table)
  shape : data = Leb128.encode indices.length ++ (indices.flatMap Leb128.encode ++
    (Leb128.encode table.size ++ (table.toList.flatMap operandBytes ++ regionBytes)))

theorem DataWritten.split {layout : MappingLayout} {mapping : FunctionMapping}
    {position : String → Nat} {data : Bytes} {table : ExprTable} {regionBytes : Bytes}
    (written : DataWritten layout mapping (mapping.filenames.map position) data table regionBytes) :
    data = (Leb128.encode mapping.filenames.length ++
      ((mapping.filenames.map position).flatMap Leb128.encode ++
        (Leb128.encode table.size ++ table.toList.flatMap operandBytes))) ++ regionBytes := by
  rw [written.shape, List.length_map]
  simp only [List.append_assoc]

theorem data_written (layout : MappingLayout) (mapping : FunctionMapping) (indices : List Nat)
    (data : Bytes) (encoded : encodeFunction layout mapping indices = .ok data) :
    ∃ table regionBytes, DataWritten layout mapping indices data table regionBytes := by
  rw [encodeFunction, bind_ok_iff] at encoded
  obtain ⟨⟨⟩, checked, encoded⟩ := encoded
  rw [bind_ok_iff] at encoded
  obtain ⟨⟨regionBytes, table⟩, files, encoded⟩ := encoded
  cases (pure_ok_iff _ _).mp encoded
  have regions := check_regions_ok mapping _ checked
  refine ⟨table, regionBytes, fun region member => (regions region member).1,
    fun region member => (regions region member).2, files, ?_⟩
  simp only [List.append_assoc]
  rfl

section Data

variable (layout : MappingLayout) (mapping : FunctionMapping) (position : String → Nat)
  (data : Bytes) (table : ExprTable) (regionBytes : Bytes)
  (written : DataWritten layout mapping (mapping.filenames.map position) data table regionBytes)
  (fits : data.length < UInt32.size)

include written fits

theorem data_lengths : mapping.filenames.length < UInt32.size ∧ table.size < UInt32.size ∧
    regionBytes.length < UInt32.size := by
  have total := congrArg List.length written.shape
  have indices := length_flat_map_le (mapping.filenames.map position) Leb128.encode
    fun _ _ => Leb128.encode_pos _
  have entries := length_flat_map_le table.toList operandBytes fun pair _ => by
    rw [operandBytes, List.length_append]
    exact Nat.add_pos_left (Leb128.encode_pos _) _
  simp only [List.length_append, List.length_map, Array.length_toList] at total indices entries
  omega

variable (shallow : ∀ expr ∈ mapping.regions.flatMap Region.storedCounters,
    expr.depth ≤ Expr.maxDepth)

include shallow

theorem regions_read (available : Nat)
    (few : Expr.nodes (mapping.regions.flatMap Region.storedCounters) ≤ available) (start : Nat) :
    Read.Yields (readFiles ⟨layout, table, mapping.filenames.length⟩ mapping.filenames.length 0
      available) .little start regionBytes [] ((sortRegions mapping.regions).map Region.stored) := by
  obtain ⟨fewFiles, smallTable, fitRegions⟩ :=
    data_lengths layout mapping position data table regionBytes written fits
  have counters : ((sortRegions mapping.regions).flatMap Region.storedCounters).Perm
      (mapping.regions.flatMap Region.storedCounters) :=
    (sort_regions_perm mapping.regions).flatMap_right _
  have shallowSorted : ∀ expr ∈ (sortRegions mapping.regions).flatMap Region.storedCounters,
      expr.depth ≤ Expr.maxDepth := fun expr member => shallow expr (counters.mem_iff.mp member)
  have files := written.encoded
  rw [List.length_map] at files
  obtain ⟨left, spent⟩ := Nat.exists_eq_add_of_le' few
  have read : Read.Yields _ .little start regionBytes []
      ((byFile (sortRegions mapping.regions) 0 mapping.filenames.length).map Region.stored) :=
    files_yield layout mapping _ mapping.filenames.length 0 #[] table regionBytes files fitRegions
      (by omega) (own_regions_sorted mapping.regions) written.formed
      ⟨layout, table, mapping.filenames.length⟩ ⟨rfl, rfl, fewFiles, smallTable⟩
      (ExprTable.extends_refl table) shallowSorted left
  rw [by_file_sort_regions mapping written.inFiles, Expr.nodes_perm counters] at read
  rwa [spent]

theorem data_yields (names : List String) (result : String → String)
    (found : ∀ name ∈ mapping.filenames,
      position name < UInt64.size ∧ names[position name]? = some (result name))
    (few : Expr.nodes (mapping.regions.flatMap Region.storedCounters) ≤
      ExprTable.budget data.length) :
    Read.Yields (readFunction layout names) .little 0 data []
      (mapping.filenames.map result, (sortRegions mapping.regions).map Region.stored) := by
  obtain ⟨fewFiles, smallTable, -⟩ :=
    data_lengths layout mapping position data table regionBytes written fits
  have regionsRead := regions_read layout mapping position data table regionBytes written fits
    shallow _ few
  rw [read_function_eq]
  apply Read.get_yields
  intro cursor _ placed remaining
  have size : cursor.data.length = data.length := by
    rw [cursor.rest_eq, placed, List.drop_zero, List.append_nil] at remaining
    rw [remaining]
  rw [size]
  dsimp only
  -- The size of the data matters for the budget only, not for how the data is split.
  generalize ExprTable.budget data.length = available at regionsRead ⊢
  rw [written.split]
  apply Read.bind_yields (tables_yield mapping.filenames position result names table found
    (Nat.lt_trans fewFiles (by decide)) (Nat.lt_trans smallTable (by decide)))
  dsimp only
  rw [List.length_map, Array.toArray_toList]
  exact Read.bind_yields_last (regionsRead _)
    (Read.bind_yields_nil Read.at_end_yields (Read.pure_yields _))

end Data

end ExecCounts.Section
