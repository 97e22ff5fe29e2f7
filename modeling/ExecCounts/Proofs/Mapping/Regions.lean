import ExecCounts.Proofs.Mapping.ExprTable
import ExecCounts.Proofs.Mapping.Stored
import ExecCounts.Proofs.Reading

set_option autoImplicit false

namespace ExecCounts.Section

open ExprTable (Extends)

variable {order : ByteOrder} {start : Nat} {rest : Bytes}

structure Scope.Serves (scope : Scope) (layout : MappingLayout) (mapping : FunctionMapping) :
    Prop where
  layout : scope.layout = layout
  fileCount : scope.fileCount = mapping.filenames.length
  fewFiles : scope.fileCount < UInt32.size
  smallTable : scope.table.size < UInt32.size

theorem encode_expr_ok (expr : Expr) (table : ExprTable) :
    encodeExpr expr table =
      .ok (Leb128.encode (table.encode expr).1.toNat, (table.encode expr).2) :=
  rfl

theorem resolve_yields (order : ByteOrder) (start : Nat) (rest : Bytes) (expr : Expr)
    (table after final : ExprTable) (number : UInt64) (budget : Nat)
    (encoded : table.encode expr = (number, after)) (small : final.size < UInt32.size)
    (later : Extends after final) (shallow : expr.depth ≤ Expr.maxDepth) :
    Read.Yields (Read.ofExcept (final.resolve number (budget + expr.size))) order start [] rest
      (expr, budget) := by
  have unfolds := ExprTable.encode_unfolds final (Nat.le_trans (Nat.le_of_lt small) (by decide)) expr
    table (encoded ▸ later)
  rw [encoded] at unfolds
  exact Read.of_except_ok_yields
    ((ExprTable.resolve_ok_iff _ _ _ _).mpr ⟨unfolds, shallow, Nat.add_comm _ _⟩)

section Head

variable (layout : MappingLayout) (mapping : FunctionMapping) (region : Region) (table : ExprTable)

inductive HeadWritten : Bytes → ExprTable → Prop where
  | counted (kind : region.kind = .code ∨ region.kind = .gap) :
      HeadWritten (Leb128.encode (table.encode region.counter).1.toNat)
        (table.encode region.counter).2
  | expanded (id : UInt32) (kind : region.kind = .expansion)
      (target : region.expandedFileId = some id) (inside : id.toNat < mapping.filenames.length) :
      HeadWritten (Leb128.encode (8 * id.toNat + 4)) table
  | skipped (kind : region.kind = .skipped) : HeadWritten (Leb128.encode (8 * skippedKind)) table
  | branched (kind : region.kind = .branch) (supported : layout.branchRegions = true)
      (middle after : ExprTable) (counter falseCounter : UInt64)
      (first : table.encode region.counter = (counter, middle))
      (second : middle.encode (region.falseCounter.getD .zero) = (falseCounter, after)) :
      HeadWritten (Leb128.encode (8 * branchKind) ++ Leb128.encode counter.toNat ++
        Leb128.encode falseCounter.toNat) after

variable (after : ExprTable) (bytes : Bytes)

theorem encode_head_written (encoded : encodeHead layout mapping region table = .ok (bytes, after)) :
    HeadWritten layout mapping region table bytes after := by
  cases kind : region.kind with
  | code =>
      simp only [encodeHead, kind, encode_expr_ok] at encoded
      cases encoded
      exact .counted (.inl kind)
  | gap =>
      simp only [encodeHead, kind, encode_expr_ok] at encoded
      cases encoded
      exact .counted (.inr kind)
  | expansion =>
      simp only [encodeHead, kind] at encoded
      cases target : region.expandedFileId with
      | none =>
          rw [target] at encoded
          cases encoded
      | some id =>
          rw [target] at encoded
          by_cases inside : id.toNat < mapping.filenames.length
          · simp only [if_pos inside] at encoded
            cases (state_pure_ok_iff _ _ _).mp encoded
            exact .expanded id kind target inside
          · simp only [if_neg inside] at encoded
            cases encoded
  | skipped =>
      simp only [encodeHead, kind] at encoded
      cases (state_pure_ok_iff _ _ _).mp encoded
      exact .skipped kind
  | branch =>
      simp only [encodeHead, kind] at encoded
      cases supported : layout.branchRegions with
      | false =>
          rw [supported] at encoded
          cases encoded
      | true =>
          rw [supported] at encoded
          cases encoded
          exact .branched kind supported _ _ _ _ rfl rfl

theorem head_extends (written : HeadWritten layout mapping region table bytes after) :
    Extends table after := by
  cases written with
  | counted kind => exact ExprTable.encode_extends table _
  | expanded id kind target inside => exact ExprTable.extends_refl table
  | skipped kind => exact ExprTable.extends_refl table
  | branched kind supported middle after counter falseCounter first second =>
      have counterExtends := ExprTable.encode_extends table region.counter
      have falseExtends := ExprTable.encode_extends middle (region.falseCounter.getD .zero)
      rw [first] at counterExtends
      rw [second] at falseExtends
      exact counterExtends.trans falseExtends

theorem head_length (written : HeadWritten layout mapping region table bytes after) :
    0 < bytes.length := by
  cases written with
  | counted kind => exact Leb128.encode_pos _
  | expanded id kind target inside => exact Leb128.encode_pos _
  | skipped kind => exact Leb128.encode_pos _
  | branched kind supported middle after counter falseCounter first second =>
      rw [List.length_append]
      exact Nat.add_pos_right _ (Leb128.encode_pos _)

section Read

variable (scope : Scope) (serves : scope.Serves layout mapping) (later : Extends after scope.table)
  (shallow : ∀ expr ∈ region.storedCounters, expr.depth ≤ Expr.maxDepth) (budget : Nat)

include serves

theorem expanded_yields (id : UInt32) (inside : id.toNat < mapping.filenames.length) :
    Read.Yields (readHead scope budget) order start (Leb128.encode (8 * id.toNat + 4)) rest
      (⟨.expansion, .zero, none, some id⟩, budget) := by
  have bound := id.toNat_lt_size
  have fits : 8 * id.toNat + 4 < UInt64.size := by
    simp only [UInt32.size, UInt64.size] at *
    omega
  have number : (UInt64.ofNat (8 * id.toNat + 4)).toNat = 8 * id.toNat + 4 :=
    UInt64.toNat_ofNat_of_lt' fits
  have target : (8 * id.toNat + 4) / 8 = id.toNat := by omega
  have present : ¬ scope.fileCount ≤ id.toNat := by
    rw [serves.fileCount]
    exact Nat.not_le.mpr inside
  apply Read.bind_yields_nil Read.position_yields
  apply Read.bind_yields_last (Read.uleb_yields _ fits)
  simp only [number]
  rw [if_neg (by omega), if_pos (by omega), target, if_neg present, UInt32.ofNat_toNat]
  exact Read.pure_yields _

include later shallow

theorem counted_yields (kind : region.kind = .code ∨ region.kind = .gap)
    (encoded : after = (table.encode region.counter).2) :
    Read.Yields (readHead scope (budget + Expr.nodes region.storedCounters)) order start
      (Leb128.encode (table.encode region.counter).1.toNat) rest (region.head, budget) := by
  obtain ⟨counters, head⟩ := region.counted_stored kind
  rw [counters] at shallow ⊢
  rw [head, Expr.nodes_singleton]
  apply Read.bind_yields_nil Read.position_yields
  apply Read.bind_yields_last (Read.uleb_word_yields _)
  rw [if_pos (ExprTable.encode_tagged table region.counter)]
  apply Read.bind_yields_nil (resolve_yields order _ rest region.counter table _ scope.table _
    budget rfl serves.smallTable (encoded ▸ later) (shallow _ List.mem_cons_self))
  exact Read.pure_yields _

theorem branched_yields (kind : region.kind = .branch) (supported : layout.branchRegions = true)
    (middle : ExprTable) (counter falseCounter : UInt64)
    (first : table.encode region.counter = (counter, middle))
    (second : middle.encode (region.falseCounter.getD .zero) = (falseCounter, after)) :
    Read.Yields (readHead scope (budget + Expr.nodes region.storedCounters)) order start
      (Leb128.encode (8 * branchKind) ++ Leb128.encode counter.toNat ++
        Leb128.encode falseCounter.toNat) rest (region.head, budget) := by
  obtain ⟨counters, head⟩ := region.branch_stored kind
  have falseExtends := ExprTable.encode_extends middle (region.falseCounter.getD .zero)
  rw [second] at falseExtends
  have counterRead := fun start => resolve_yields order start
    (Leb128.encode falseCounter.toNat ++ rest) region.counter table middle scope.table counter
    (budget + (region.falseCounter.getD .zero).size) first serves.smallTable
    (falseExtends.trans later)
  have falseRead := fun start => resolve_yields order start rest
    (region.falseCounter.getD .zero) middle after scope.table falseCounter budget second
    serves.smallTable later
  rw [counters] at shallow ⊢
  rw [head, Expr.nodes_pair, ← Nat.add_assoc, List.append_assoc]
  apply Read.bind_yields_nil Read.position_yields
  apply Read.bind_yields (Read.uleb_yields (8 * branchKind) (by decide))
  change Read.Yields (if branchKind = branchKind ∧ scope.layout.branchRegions = true then _
    else _) _ _ _ _ _
  rw [if_pos ⟨rfl, serves.layout ▸ supported⟩]
  apply Read.bind_yields (Read.uleb_word_yields _)
  apply Read.bind_yields_nil (counterRead _ (shallow _ List.mem_cons_self))
  apply Read.bind_yields_last (Read.uleb_word_yields _)
  apply Read.bind_yields_nil
    (falseRead _ (shallow _ (List.mem_cons_of_mem _ List.mem_cons_self)))
  exact Read.pure_yields _

theorem head_yields (written : HeadWritten layout mapping region table bytes after) :
    Read.Yields (readHead scope (budget + Expr.nodes region.storedCounters)) order start bytes rest
      (region.head, budget) := by
  cases written with
  | counted kind =>
      exact counted_yields layout mapping region table _ scope serves later shallow budget kind rfl
  | expanded id kind target inside =>
      obtain ⟨counters, head⟩ := region.expansion_stored kind
      rw [counters, head, target]
      exact expanded_yields layout mapping scope serves budget id inside
  | skipped kind =>
      obtain ⟨counters, head⟩ := region.skipped_stored kind
      rw [counters, head]
      apply Read.bind_yields_nil Read.position_yields
      apply Read.bind_yields_last (Read.uleb_yields (8 * skippedKind) (by decide))
      exact Read.pure_yields _
  | branched kind supported middle after counter falseCounter first second =>
      exact branched_yields layout mapping region table _ scope serves later shallow budget kind
        supported middle counter falseCounter first second

end Read

end Head

theorem next_line_ok (what : String) (line target : UInt32) (below : line.toNat ≤ target.toNat) :
    nextLine what line (UInt32.ofNat (target.toNat - line.toNat)) = .ok target := by
  have bound := target.toNat_lt_size
  have distance : (UInt32.ofNat (target.toNat - line.toNat)).toNat = target.toNat - line.toNat :=
    UInt32.toNat_ofNat_of_lt' (by omega)
  have reached : line + UInt32.ofNat (target.toNat - line.toNat) = target := by
    apply UInt32.toNat_inj.mp
    rw [UInt32.toNat_add, distance, Nat.add_sub_cancel' below]
    exact Nat.mod_eq_of_lt bound
  rw [nextLine, distance, if_pos (by omega), reached]

theorem next_line_yields (what : String) (line target : UInt32)
    (below : line.toNat ≤ target.toNat) :
    Read.Yields (Read.ofExcept (nextLine what line (UInt32.ofNat (target.toNat - line.toNat)))) order
      start [] rest target := by
  rw [next_line_ok what line target below]
  exact Read.of_except_yields target

def placeBytes (line : Nat) (region : Region) (first last : Nat) : Bytes :=
  Leb128.encode (region.start.line.toNat - line) ++ Leb128.encode first ++
    Leb128.encode (region.stop.line.toNat - region.start.line.toNat) ++ Leb128.encode last

section Region

variable (layout : MappingLayout) (mapping : FunctionMapping) (region : Region)
  (table after : ExprTable) (headBytes : Bytes) (first last : Nat) (line : UInt32)

theorem region_yields (written : HeadWritten layout mapping region table headBytes after)
    (columns : storedColumns mapping region = .ok (first, last))
    (below : line.toNat ≤ region.start.line.toNat) (formed : region.isWellFormed)
    (scope : Scope) (serves : scope.Serves layout mapping) (later : Extends after scope.table)
    (shallow : ∀ expr ∈ region.storedCounters, expr.depth ≤ Expr.maxDepth) (budget : Nat) :
    Read.Yields (readRegion scope region.fileId line (budget + Expr.nodes region.storedCounters))
      order start (headBytes ++ placeBytes line.toNat region first last) rest
      (region.stored, budget) := by
  obtain ⟨firstFits, lastFits, loaded⟩ := load_stored_columns mapping region first last columns
  have ordered : region.start.line.toNat ≤ region.stop.line.toNat := by
    simp only [Region.isWellFormed, Position.le, Bool.or_eq_true, Bool.and_eq_true,
      decide_eq_true_eq, beq_iff_eq] at formed
    rcases formed with earlier | ⟨same, -⟩
    · exact Nat.le_of_lt earlier
    · rw [same]
  have startBound := region.start.line.toNat_lt_size
  have stopBound := region.stop.line.toNat_lt_size
  rw [placeBytes, List.append_assoc, List.append_assoc]
  apply Read.bind_yields (head_yields layout mapping region table after headBytes scope serves later
    shallow budget written)
  apply Read.bind_yields (Read.uleb32_yields _ (by omega))
  apply Read.bind_yields (Read.uleb32_yields _ firstFits)
  apply Read.bind_yields (Read.uleb32_yields _ (by omega))
  apply Read.bind_yields_last (Read.uleb32_yields _ lastFits)
  rw [loaded]
  apply Read.bind_yields_nil (next_line_yields "start" line region.start.line below)
  apply Read.bind_yields_nil (next_line_yields "end" _ region.stop.line ordered)
  have kind : (if decide (region.kind = .gap) = true then .gap else region.head.kind) = region.kind := by
    by_cases gap : region.kind = .gap
    · rw [decide_eq_true gap, if_pos rfl, gap]
    · rw [decide_eq_false gap, if_neg Bool.false_ne_true, Region.head, if_neg gap]
  dsimp only
  rw [kind]
  change Read.Yields (if (!region.stored.isWellFormed) = true then _ else _) _ _ _ _ _
  rw [Region.well_formed_stored region formed, if_neg (by decide)]
  exact Read.pure_yields _

end Region

theorem encode_regions_cons (layout : MappingLayout) (mapping : FunctionMapping) (region : Region)
    (others : List Region) (line : Nat) (table after : ExprTable) (bytes : Bytes)
    (encoded : encodeRegions layout mapping line (region :: others) table = .ok (bytes, after)) :
    ∃ headBytes middle first last otherBytes,
      HeadWritten layout mapping region table headBytes middle ∧
      storedColumns mapping region = .ok (first, last) ∧
      encodeRegions layout mapping region.start.line.toNat others middle = .ok (otherBytes, after) ∧
      bytes = headBytes ++ placeBytes line region first last ++ otherBytes := by
  rw [encodeRegions, state_bind_ok_iff] at encoded
  obtain ⟨headBytes, middle, headOk, encoded⟩ := encoded
  rw [state_bind_ok_iff] at encoded
  obtain ⟨⟨first, last⟩, same, columns, encoded⟩ := encoded
  obtain ⟨columnsOk, rfl⟩ := (state_lift_ok_iff _ _ _).mp columns
  dsimp only at encoded
  rw [state_bind_ok_iff] at encoded
  obtain ⟨otherBytes, final, othersOk, encoded⟩ := encoded
  cases (state_pure_ok_iff _ _ _).mp encoded
  have written := encode_head_written layout mapping region table middle headBytes headOk
  refine ⟨headBytes, middle, first, last, otherBytes, written, columnsOk, othersOk, ?_⟩
  simp only [placeBytes, List.append_assoc]

section Regions

variable (layout : MappingLayout) (mapping : FunctionMapping)

theorem regions_extend (regions : List Region) (line : Nat) (table after : ExprTable) (bytes : Bytes)
    (encoded : encodeRegions layout mapping line regions table = .ok (bytes, after)) :
    Extends table after := by
  induction regions generalizing line table bytes with
  | nil =>
      rw [encodeRegions] at encoded
      cases (state_pure_ok_iff _ _ _).mp encoded
      exact ExprTable.extends_refl _
  | cons region others ih =>
      obtain ⟨headBytes, middle, first, last, otherBytes, written, -, othersOk, -⟩ :=
        encode_regions_cons layout mapping region others line table after bytes encoded
      exact (head_extends layout mapping region table middle headBytes written).trans
        (ih _ middle otherBytes othersOk)

theorem regions_length (regions : List Region) (line : Nat) (table after : ExprTable) (bytes : Bytes)
    (encoded : encodeRegions layout mapping line regions table = .ok (bytes, after)) :
    regions.length ≤ bytes.length := by
  induction regions generalizing line table bytes with
  | nil => exact Nat.zero_le _
  | cons region others ih =>
      obtain ⟨headBytes, middle, first, last, otherBytes, written, -, othersOk, rfl⟩ :=
        encode_regions_cons layout mapping region others line table after bytes encoded
      have headLength := head_length layout mapping region table middle headBytes written
      have othersLength := ih _ middle otherBytes othersOk
      simp only [List.length_append, List.length_cons]
      omega

theorem regions_yield (regions : List Region) (fileId line : UInt32) (table after : ExprTable)
    (bytes : Bytes)
    (encoded : encodeRegions layout mapping line.toNat regions table = .ok (bytes, after))
    (sameFile : ∀ region ∈ regions, region.fileId = fileId)
    (sorted : (regions.map fun region => region.start.line.toNat).Pairwise (· ≤ ·))
    (below : ∀ region ∈ regions, line.toNat ≤ region.start.line.toNat)
    (formed : ∀ region ∈ regions, region.isWellFormed) (scope : Scope)
    (serves : scope.Serves layout mapping) (later : Extends after scope.table)
    (shallow : ∀ expr ∈ regions.flatMap Region.storedCounters, expr.depth ≤ Expr.maxDepth)
    (budget : Nat) :
    Read.Yields (readRegions scope fileId regions.length line
      (budget + Expr.nodes (regions.flatMap Region.storedCounters))) order start bytes rest
      (regions.map Region.stored, budget) := by
  induction regions generalizing line table bytes start with
  | nil =>
      rw [encodeRegions] at encoded
      cases (state_pure_ok_iff _ _ _).mp encoded
      exact Read.pure_yields _
  | cons region others ih =>
      obtain ⟨headBytes, middle, first, last, otherBytes, written, columns, othersOk, rfl⟩ :=
        encode_regions_cons layout mapping region others line.toNat table after bytes encoded
      have middleLater := (regions_extend layout mapping others _ middle after otherBytes
        othersOk).trans later
      obtain ⟨ascends, othersSorted⟩ := List.pairwise_cons.mp sorted
      rw [List.flatMap_cons] at shallow ⊢
      rw [Expr.nodes_append, Nat.add_comm (Expr.nodes region.storedCounters), ← Nat.add_assoc]
      cases sameFile region List.mem_cons_self
      apply Read.bind_yields (region_yields layout mapping region table middle headBytes first last
        line written columns (below region List.mem_cons_self) (formed region List.mem_cons_self)
        scope serves middleLater (fun expr member => shallow expr (List.mem_append_left _ member)) _)
      apply Read.bind_yields_last
      · apply ih region.start.line middle otherBytes othersOk
        · exact fun other member => sameFile other (List.mem_cons_of_mem _ member)
        · exact othersSorted
        · exact fun other member => ascends _ (List.mem_map_of_mem member)
        · exact fun other member => formed other (List.mem_cons_of_mem _ member)
        · exact fun expr member => shallow expr (List.mem_append_right _ member)
      · exact Read.pure_yields _

end Regions

def ownRegions (regions : List Region) (fileId : Nat) : List Region :=
  regions.filter fun region => region.fileId.toNat == fileId

def byFile (regions : List Region) (fileId n : Nat) : List Region :=
  (List.range' fileId n).flatMap (ownRegions regions)

theorem by_file_succ (regions : List Region) (fileId n : Nat) :
    byFile regions fileId (n + 1) = ownRegions regions fileId ++ byFile regions (fileId + 1) n := by
  rw [byFile, List.range'_succ, List.flatMap_cons]
  rfl

theorem own_regions_file (regions : List Region) (fileId : Nat) (fits : fileId < UInt32.size) :
    ∀ region ∈ ownRegions regions fileId, region.fileId = UInt32.ofNat fileId := by
  intro region member
  apply UInt32.toNat_inj.mp
  rw [UInt32.toNat_ofNat_of_lt' fits]
  exact beq_iff_eq.mp (List.mem_filter.mp member).2

section Files

variable (layout : MappingLayout) (mapping : FunctionMapping) (regions : List Region)

theorem encode_files_succ (n fileId : Nat) (table after : ExprTable) (bytes : Bytes)
    (encoded : encodeFiles layout mapping regions (n + 1) fileId table = .ok (bytes, after)) :
    ∃ ownBytes middle otherBytes,
      encodeRegions layout mapping 0 (ownRegions regions fileId) table = .ok (ownBytes, middle) ∧
      encodeFiles layout mapping regions n (fileId + 1) middle = .ok (otherBytes, after) ∧
      bytes = Leb128.encode (ownRegions regions fileId).length ++ ownBytes ++ otherBytes := by
  rw [encodeFiles, state_bind_ok_iff] at encoded
  obtain ⟨ownBytes, middle, ownOk, encoded⟩ := encoded
  rw [state_bind_ok_iff] at encoded
  obtain ⟨otherBytes, final, othersOk, encoded⟩ := encoded
  cases (state_pure_ok_iff _ _ _).mp encoded
  exact ⟨ownBytes, middle, otherBytes, ownOk, othersOk, rfl⟩

theorem files_extend (n fileId : Nat) (table after : ExprTable) (bytes : Bytes)
    (encoded : encodeFiles layout mapping regions n fileId table = .ok (bytes, after)) :
    Extends table after := by
  induction n generalizing fileId table bytes with
  | zero =>
      rw [encodeFiles] at encoded
      cases (state_pure_ok_iff _ _ _).mp encoded
      exact ExprTable.extends_refl _
  | succ n ih =>
      obtain ⟨ownBytes, middle, otherBytes, ownOk, othersOk, -⟩ :=
        encode_files_succ layout mapping regions n fileId table after bytes encoded
      exact (regions_extend layout mapping _ 0 table middle ownBytes ownOk).trans
        (ih (fileId + 1) middle otherBytes othersOk)

theorem files_yield (n fileId : Nat) (table after : ExprTable) (bytes : Bytes)
    (encoded : encodeFiles layout mapping regions n fileId table = .ok (bytes, after))
    (fits : bytes.length < UInt32.size) (few : fileId + n ≤ UInt32.size)
    (sorted : ∀ id, ((ownRegions regions id).map fun region => region.start.line.toNat).Pairwise
      (· ≤ ·))
    (formed : ∀ region ∈ regions, region.isWellFormed) (scope : Scope)
    (serves : scope.Serves layout mapping) (later : Extends after scope.table)
    (shallow : ∀ expr ∈ regions.flatMap Region.storedCounters, expr.depth ≤ Expr.maxDepth)
    (budget : Nat) :
    Read.Yields (readFiles scope n fileId
      (budget + Expr.nodes ((byFile regions fileId n).flatMap Region.storedCounters))) order start
      bytes rest ((byFile regions fileId n).map Region.stored) := by
  induction n generalizing fileId table bytes start with
  | zero =>
      rw [encodeFiles] at encoded
      cases (state_pure_ok_iff _ _ _).mp encoded
      exact Read.pure_yields _
  | succ n ih =>
      obtain ⟨ownBytes, middle, otherBytes, ownOk, othersOk, rfl⟩ :=
        encode_files_succ layout mapping regions n fileId table after bytes encoded
      have middleLater := (files_extend layout mapping regions n _ middle after otherBytes
        othersOk).trans later
      have ownLength := regions_length layout mapping _ 0 table middle ownBytes ownOk
      simp only [List.length_append] at fits
      have ownFits : (ownRegions regions fileId).length < UInt64.size := by
        simp only [UInt32.size, UInt64.size] at *
        omega
      have members : ∀ region ∈ ownRegions regions fileId, region ∈ regions :=
        fun region member => (List.mem_filter.mp member).1
      have sameFile := own_regions_file regions fileId (by omega)
      rw [by_file_succ, List.flatMap_append, Expr.nodes_append, List.map_append,
        Nat.add_comm (Expr.nodes _), ← Nat.add_assoc, List.append_assoc]
      -- The number of the regions of this file, the regions, and then the other files.
      apply Read.bind_yields (Read.uleb_yields _ ownFits)
      rw [UInt64.toNat_ofNat_of_lt' ownFits]
      apply Read.bind_yields
      · apply regions_yield layout mapping (ownRegions regions fileId) (UInt32.ofNat fileId) 0 table
          middle ownBytes ownOk sameFile (sorted fileId) _ _ scope serves middleLater
        · intro expr member
          obtain ⟨region, own, stored⟩ := List.mem_flatMap.mp member
          exact shallow expr (List.mem_flatMap.mpr ⟨region, members region own, stored⟩)
        · exact fun region _ => Nat.zero_le _
        · exact fun region member => formed region (members region member)
      · apply Read.bind_yields_last
        · exact ih (fileId + 1) middle otherBytes othersOk (by omega) (by omega)
        · exact Read.pure_yields _

end Files

end ExecCounts.Section
