import ExecCounts.Proofs.Chunk
import ExecCounts.Proofs.Parts
import ExecCounts.Mapping.Reader
import ExecCounts.Mapping.Writer

set_option autoImplicit false

namespace ExecCounts.Section

def storedFilename (options : Options) (name : String) : String :=
  match options.version with
  | .v11 => name
  | .v12 => name
  | .v13 => if name = options.compilationDir then options.compilationDir
      else joinPath options.compilationDir name
  | .v14 => if name = options.compilationDir then options.compilationDir
      else joinPath options.compilationDir name

theorem encode_text_pos (text : String) : 0 < (encodeText text).length := by
  rw [encodeText, List.length_append]
  exact Nat.add_pos_left (Leb128.encode_pos _) _

theorem length_text_le (text : String) : (Utf8.bytes text).length ≤ (encodeText text).length := by
  rw [encodeText, List.length_append]
  exact Nat.le_add_left _ _

theorem names_list_yield {order : ByteOrder} {start : Nat} {rest : Bytes} (names : List String)
    (fits : (names.flatMap encodeText).length < UInt64.size) :
    Read.Yields (times names.length Read.ulebText) order start (names.flatMap encodeText) rest
      names := by
  apply Read.times_yields encodeText names
  intro name member start rest
  apply Read.uleb_text_yields
  have own := length_part_le names encodeText name member
  have text := length_text_le name
  omega

section Names

variable (deflate : Bytes → Bytes)
  (lossless : ∀ payload, Zlib.inflate (deflate payload) = .complete payload) (options : Options)
  (names : List String) (small : (encodeFilenames deflate options names).length < UInt32.size)

include lossless small

theorem names_fit : (names.flatMap encodeText).length < UInt64.size := by
  rw [encodeFilenames, List.length_append] at small
  by_cases compressed : options.version.mappingLayout.compressedFilenames
  · rw [if_pos compressed] at small
    exact Chunk.payload_fits deflate options.compress _ (lossless _) (by omega)
  · rw [if_neg compressed] at small
    simp only [UInt32.size, UInt64.size] at *
    omega

theorem name_count_fits : names.length < UInt64.size :=
  Nat.lt_of_le_of_lt (length_flat_map_le names encodeText fun name _ => encode_text_pos name)
    (names_fit deflate lossless options names small)

theorem names_yield :
    Read.Yields (readNames options.version.mappingLayout) .little 0
      (encodeFilenames deflate options names) [] names := by
  have fits := names_fit deflate lossless options names small
  have countFits := name_count_fits deflate lossless options names small
  rw [encodeFilenames] at small ⊢
  rw [List.length_append] at small
  apply Read.bind_yields (Read.uleb_yields _ countFits)
  rw [UInt64.toNat_ofNat_of_lt' countFits]
  dsimp only
  by_cases compressed : options.version.mappingLayout.compressedFilenames
  · rw [if_pos compressed] at small ⊢
    rw [if_pos compressed]
    apply Read.bind_yields_last
      (Chunk.chunk_yields deflate options.compress _ (lossless _) (by omega))
    refine Read.bind_yields_nil (Read.of_except_ok_yields
      (Read.read_of_yields (?_ : Read.Yields _ .little 0 _ [] names))) ?_
    · apply Read.bind_yields_last (names_list_yield names fits)
      exact Read.bind_yields_nil Read.at_end_yields (Read.pure_yields names)
    · exact Read.bind_yields_nil Read.at_end_yields (Read.pure_yields names)
  · rw [if_neg compressed, if_neg compressed]
    apply Read.bind_yields_last (names_list_yield names fits)
    exact Read.bind_yields_nil Read.at_end_yields (Read.pure_yields names)

end Names

theorem index_of_found (names : List String) (name : String) (member : name ∈ names) :
    names[names.idxOf name]? = some name := by
  have bound := List.idxOf_lt_length_iff.mpr member
  rw [List.getElem?_eq_getElem bound, List.getElem_idxOf bound]

theorem mem_filename_table (options : Options) (functions : List FunctionMapping)
    (mapping : FunctionMapping) (listed : mapping ∈ functions) (name : String)
    (member : name ∈ mapping.filenames) : name ∈ filenameTable options functions := by
  have used : name ∈ functions.flatMap FunctionMapping.filenames :=
    List.mem_flatMap.mpr ⟨mapping, listed, member⟩
  rw [filenameTable, List.mem_eraseDups]
  split
  · exact List.mem_cons_of_mem _ used
  · exact used

theorem resolved_found (options : Options) (functions : List FunctionMapping) (name : String)
    (member : name ∈ filenameTable options functions) :
    (resolveNames options.version.mappingLayout (filenameTable options functions))[
      (filenameTable options functions).idxOf name]? = some (storedFilename options name) := by
  -- A directory always comes first, so that its own index finds it as it is.
  by_cases relative : options.version.mappingLayout.compilationDir
  · obtain ⟨others, shape⟩ : ∃ others,
        filenameTable options functions = options.compilationDir :: others := by
      rw [filenameTable, if_pos relative, List.eraseDups_cons]
      exact ⟨_, rfl⟩
    have stored : storedFilename options name = if name = options.compilationDir then
        options.compilationDir else joinPath options.compilationDir name := by
      rw [storedFilename]
      cases version : options.version with
      | v11 => rw [version] at relative; cases relative
      | v12 => rw [version] at relative; cases relative
      | v13 => rfl
      | v14 => rfl
    rw [shape] at member ⊢
    rw [resolveNames, if_pos relative, stored]
    by_cases dir : name = options.compilationDir
    · rw [if_pos dir, dir, List.idxOf_cons_self]
      rfl
    · have later : name ∈ others := (List.mem_cons.mp member).resolve_left dir
      have behind : (options.compilationDir :: others).idxOf name = others.idxOf name + 1 := by
        rw [List.idxOf_cons, beq_false_of_ne (Ne.symm dir), cond_false]
      rw [if_neg dir, behind, List.getElem?_cons_succ, List.getElem?_map,
        index_of_found others name later]
      rfl
  · have stored : storedFilename options name = name := by
      rw [storedFilename]
      cases version : options.version with
      | v11 => rfl
      | v12 => rfl
      | v13 => rw [version] at relative; cases relative rfl
      | v14 => rw [version] at relative; cases relative rfl
    rw [resolveNames.eq_def, if_neg relative, stored]
    exact index_of_found _ name member

end ExecCounts.Section
