import ExecCounts.Proofs.Profile.Whole

set_option autoImplicit false

namespace ExecCounts.Profile

theorem all_records_snoc (profiles : List Profile) (profile : Profile) :
    allRecords (profiles ++ [profile]) = allRecords profiles ++ profile.records := by
  rw [allRecords, List.flatMap_append, List.flatMap_singleton]
  rfl

theorem all_skipped_snoc (profiles : List Profile) (profile : Profile) :
    allSkipped (profiles ++ [profile]) = allSkipped profiles ++ profile.skipped := by
  rw [allSkipped, List.flatMap_append, List.flatMap_singleton]
  rfl

theorem whole_empty : Whole [] (empty .raw) where
  records := ⟨∅, sums_nil, rfl⟩
  format := rfl
  version := rfl
  variant := rfl
  idsAscend := .nil
  ids _ := by simp [empty]
  skippedSorted := .nil
  skipped := .nil

section Step

variable (done : List Profile) (whole profile : Profile) (holds : Whole done whole)
  (agreed : Agreeing (allRecords done))

include holds agreed

theorem combine_agreeing_iff : Agreeing (whole.records ++ profile.records) ↔
    Agreeing (allRecords (done ++ [profile])) := by
  obtain ⟨sums, sumsHold, listed⟩ := holds.records
  have regrouped := agreeing_regrouped sums (allRecords done) [] profile.records sumsHold agreed
  rw [listed, all_records_snoc]
  exact regrouped

theorem combine_agreeing (agreeing : Agreeing (allRecords (done ++ [profile]))) :
    ∃ next, combine whole profile = .ok next ∧ Whole (done ++ [profile]) next := by
  obtain ⟨before, beforeHolds, listed⟩ := holds.records
  obtain ⟨sums, sumsHold, merged⟩ := merge_records_agreeing _
    ((combine_agreeing_iff done whole profile holds agreed).mpr agreeing)
  refine ⟨_, by rw [combine, merged]; rfl, ?_⟩
  exact {
    records := by
      refine ⟨sums, ?_, rfl⟩
      rw [listed] at sumsHold
      rw [all_records_snoc]
      exact (sums_regrouped before (allRecords done) [] profile.records beforeHolds sums).mp sumsHold
    format := by rw [List.map_append, List.foldl_append, ← holds.format]; rfl
    version := by rw [List.map_append, List.foldl_append, ← holds.version]; rfl
    variant := by rw [List.map_append, List.foldl_append, ← holds.variant]; rfl
    idsAscend := ascending_ascending _
    ids := by
      intro id
      rw [mem_ascending, List.mem_append, holds.ids]
      simp only [List.mem_append, List.mem_singleton, or_and_right, exists_or, exists_eq_left]
    skippedSorted := skipped_sorted _
    skipped := by
      rw [all_skipped_snoc]
      exact (List.mergeSort_perm _ _).trans (holds.skipped.append_right _) }

theorem combine_conflict (conflict : ¬ Agreeing (allRecords (done ++ [profile]))) :
    ∃ failure, combine whole profile = .error failure := by
  cases outcome : combine whole profile with
  | error failure => exact ⟨failure, rfl⟩
  | ok next =>
      rw [combine, bind_ok_iff] at outcome
      obtain ⟨merged, mergedOk, -⟩ := outcome
      obtain ⟨agreeing, -⟩ := (merge_records_ok_iff _ _).mp mergedOk
      exact absurd ((combine_agreeing_iff done whole profile holds agreed).mp agreeing) conflict

end Step

theorem all_records_append (first second : List Profile) :
    allRecords (first ++ second) = allRecords first ++ allRecords second :=
  List.flatMap_append

theorem fold_agreeing (done rest : List Profile) (whole : Profile) (holds : Whole done whole)
    (agreeing : Agreeing (allRecords (done ++ rest))) :
    ∃ merged, rest.foldlM combine whole = .ok merged ∧ Whole (done ++ rest) merged := by
  induction rest generalizing done whole with
  | nil =>
      rw [List.append_nil]
      exact ⟨whole, rfl, holds⟩
  | cons profile rest ih =>
      rw [List.append_cons] at agreeing ⊢
      have soFar : Agreeing (allRecords (done ++ [profile])) := by
        rw [all_records_append] at agreeing
        exact agreeing_before _ _ agreeing
      have before : Agreeing (allRecords done) := by
        rw [all_records_append] at soFar
        exact agreeing_before _ _ soFar
      obtain ⟨next, combined, nextHolds⟩ :=
        combine_agreeing done whole profile holds before soFar
      obtain ⟨merged, ran, mergedHolds⟩ := ih (done ++ [profile]) next nextHolds agreeing
      refine ⟨merged, ?_, mergedHolds⟩
      rw [List.foldlM_cons, combined]
      exact ran

theorem fold_conflict (done rest : List Profile) (whole : Profile) (holds : Whole done whole)
    (agreed : Agreeing (allRecords done)) (conflict : ¬ Agreeing (allRecords (done ++ rest))) :
    ∃ failure, rest.foldlM combine whole = .error failure := by
  induction rest generalizing done whole with
  | nil =>
      rw [List.append_nil] at conflict
      exact absurd agreed conflict
  | cons profile rest ih =>
      rw [List.append_cons] at conflict
      rw [List.foldlM_cons]
      by_cases still : Agreeing (allRecords (done ++ [profile]))
      · obtain ⟨next, combined, nextHolds⟩ :=
          combine_agreeing done whole profile holds agreed still
        rw [combined]
        exact ih (done ++ [profile]) next nextHolds still conflict
      · obtain ⟨failure, failed⟩ := combine_conflict done whole profile holds agreed still
        rw [failed]
        exact ⟨failure, rfl⟩

theorem merge_all_agreeing (profiles : List Profile) (nonempty : profiles ≠ [])
    (agreeing : Agreeing (allRecords profiles)) :
    ∃ merged, mergeAll profiles = .ok merged ∧ Whole profiles merged := by
  cases profiles with
  | nil => exact absurd rfl nonempty
  | cons profile rest => exact fold_agreeing [] (profile :: rest) _ whole_empty agreeing

theorem merge_all_conflict (profiles : List Profile) (conflict : ¬ Agreeing (allRecords profiles)) :
    (mergeAll profiles).toOption = none := by
  cases profiles with
  | nil => exact absurd agreeing_nil conflict
  | cons profile rest =>
      obtain ⟨failure, failed⟩ :=
        fold_conflict [] (profile :: rest) _ whole_empty agreeing_nil conflict
      rw [mergeAll, failed]
      · rfl
      · exact List.cons_ne_nil profile rest

def Partials (chunks : List (List Profile)) (partials : List Profile) : Prop :=
  List.Forall₂ (fun chunk part => Agreeing (allRecords chunk) ∧ Whole chunk part) chunks partials

section Grouping

variable (chunks : List (List Profile)) (partials : List Profile) (parts : Partials chunks partials)

include parts

theorem agreeing_partials (before : List FunctionRecord) :
    Agreeing (before ++ allRecords partials) ↔ Agreeing (before ++ allRecords chunks.flatten) := by
  induction parts generalizing before with
  | nil => exact Iff.rfl
  | @cons chunk part chunks partials head _ ih =>
      obtain ⟨agreed, holds⟩ := head
      obtain ⟨sums, sumsHold, listed⟩ := holds.records
      have regrouped := agreeing_regrouped sums _ before (allRecords partials) sumsHold agreed
      rw [List.flatten_cons, all_records_append, ← List.append_assoc, ← ih, ← regrouped, ← listed,
        List.append_assoc]
      rfl

theorem sums_partials (before : List FunctionRecord) (whole : RecordMap) :
    Sums whole (before ++ allRecords partials) ↔
      Sums whole (before ++ allRecords chunks.flatten) := by
  induction parts generalizing before with
  | nil => exact Iff.rfl
  | @cons chunk part chunks partials head _ ih =>
      obtain ⟨-, holds⟩ := head
      obtain ⟨sums, sumsHold, listed⟩ := holds.records
      have regrouped := sums_regrouped sums _ before (allRecords partials) sumsHold whole
      rw [List.flatten_cons, all_records_append, ← List.append_assoc, ← ih, ← regrouped, ← listed,
        List.append_assoc]
      rfl

theorem fold_partials {α : Type} (field : Profile → α) (op : α → α → α) (unit : α)
    [Std.Associative op] [Std.LawfulIdentity op unit]
    (each : ∀ profiles whole, Whole profiles whole → field whole = (profiles.map field).foldl op unit) :
    (partials.map field).foldl op unit = (chunks.flatten.map field).foldl op unit := by
  have partial_fields : partials.map field =
      (chunks.map (List.map field)).map fun group => group.foldl op unit := by
    induction parts with
    | nil => rfl
    | cons head _ ih => rw [List.map_cons, List.map_cons, List.map_cons, ih, each _ _ head.2]
  rw [partial_fields, foldl_flatten, List.map_flatten]

theorem ids_partials (id : Bytes) : (∃ part ∈ partials, id ∈ part.binaryIds) ↔
    ∃ profile ∈ chunks.flatten, id ∈ profile.binaryIds := by
  induction parts with
  | nil => exact Iff.rfl
  | cons head _ ih =>
      rw [List.exists_mem_cons_iff, ih, head.2.ids]
      simp only [List.flatten_cons, List.mem_append, or_and_right, exists_or]

theorem skipped_partials : (allSkipped partials).Perm (allSkipped chunks.flatten) := by
  induction parts with
  | nil => exact .nil
  | cons head _ ih =>
      rw [allSkipped, List.flatMap_cons, List.flatten_cons, allSkipped, List.flatMap_append]
      exact head.2.skipped.append ih

theorem alike_partials : Alike partials chunks.flatten where
  agreeing := agreeing_partials chunks partials parts []
  sums := sums_partials chunks partials parts []
  format := fold_partials chunks partials parts _ _ _ fun _ _ each => each.format
  version := fold_partials chunks partials parts _ _ _ fun _ _ each => each.version
  variant := fold_partials chunks partials parts _ _ _ fun _ _ each => each.variant
  ids := ids_partials chunks partials parts
  skipped := skipped_partials chunks partials parts

end Grouping

theorem merge_all_ok_iff (profiles : List Profile) (nonempty : profiles ≠ [])
    (determined : KindDetermined profiles) (merged : Profile) :
    mergeAll profiles = .ok merged ↔ Agreeing (allRecords profiles) ∧ Whole profiles merged := by
  by_cases agreeing : Agreeing (allRecords profiles)
  · obtain ⟨found, ran, holds⟩ := merge_all_agreeing profiles nonempty agreeing
    constructor
    · intro same
      cases ran.symm.trans same
      exact ⟨agreeing, holds⟩
    · rintro ⟨-, other⟩
      rw [ran, whole_unique profiles found merged determined holds other]
  · have failed := merge_all_conflict profiles agreeing
    constructor
    · intro same
      rw [same] at failed
      cases failed
    · rintro ⟨agrees, -⟩
      exact absurd agrees agreeing

theorem merge_all_alike (first second : List Profile) (firstNonempty : first ≠ [])
    (secondNonempty : second ≠ []) (alike : Alike first second)
    (determined : KindDetermined second) (merged : Profile) :
    mergeAll first = .ok merged ↔ mergeAll second = .ok merged := by
  rw [merge_all_ok_iff first firstNonempty (alike.kind_determined determined),
    merge_all_ok_iff second secondNonempty determined, alike.agreeing]
  apply and_congr_right
  intro _
  exact ⟨alike.whole merged, alike.symm.whole merged⟩

theorem merge_all_perm (profiles other : List Profile) (same : profiles.Perm other)
    (determined : KindDetermined profiles) :
    (mergeAll other).toOption = (mergeAll profiles).toOption := by
  by_cases empty : profiles = []
  · cases empty
    rw [List.nil_perm.mp same]
  · have otherNonempty : other ≠ [] := by
      rintro rfl
      exact empty (List.perm_nil.mp same)
    apply to_option_congr
    exact merge_all_alike other profiles otherNonempty empty (alike_perm _ _ same.symm) determined

theorem merge_chunks (chunks : List (List Profile)) (nonempty : ∀ chunk ∈ chunks, chunk ≠ [])
    (agreeing : Agreeing (allRecords chunks.flatten)) :
    ∃ partials, chunks.mapM mergeAll = .ok partials ∧ Partials chunks partials := by
  induction chunks with
  | nil => exact ⟨[], rfl, .nil⟩
  | cons chunk rest ih =>
      rw [List.flatten_cons, all_records_append] at agreeing
      have agreed := agreeing_before _ _ agreeing
      obtain ⟨part, merged, holds⟩ := merge_all_agreeing chunk (nonempty chunk List.mem_cons_self) agreed
      obtain ⟨partials, ran, parts⟩ :=
        ih (fun other member => nonempty other (List.mem_cons_of_mem _ member))
          (agreeing_after _ _ agreeing)
      refine ⟨part :: partials, ?_, .cons ⟨agreed, holds⟩ parts⟩
      rw [List.mapM_cons, merged, ran]
      rfl

theorem chunks_merged (chunks : List (List Profile)) (nonempty : ∀ chunk ∈ chunks, chunk ≠ [])
    (partials : List Profile) (ran : chunks.mapM mergeAll = .ok partials) :
    Partials chunks partials := by
  rw [map_m_ok_iff] at ran
  induction ran with
  | nil => exact .nil
  | @cons chunk part chunks partials head _ ih =>
      refine .cons ?_ (ih fun other member => nonempty other (List.mem_cons_of_mem _ member))
      by_cases agreeing : Agreeing (allRecords chunk)
      · obtain ⟨found, merged, holds⟩ :=
          merge_all_agreeing chunk (nonempty chunk List.mem_cons_self) agreeing
        cases head.symm.trans merged
        exact ⟨agreeing, holds⟩
      · have failed := merge_all_conflict chunk agreeing
        rw [head] at failed
        cases failed

theorem merge_all_chunks (chunks : List (List Profile)) (nonempty : ∀ chunk ∈ chunks, chunk ≠ [])
    (determined : KindDetermined chunks.flatten) :
    (chunks.mapM mergeAll >>= mergeAll).toOption = (mergeAll chunks.flatten).toOption := by
  by_cases empty : chunks = []
  · cases empty
    rfl
  · have flatNonempty : chunks.flatten ≠ [] := by
      intro flat
      obtain ⟨chunk, member⟩ := List.exists_mem_of_ne_nil chunks empty
      exact nonempty chunk member (List.flatten_eq_nil_iff.mp flat chunk member)
    -- Partial results hold together what the profiles hold, so that they merge to the same.
    have second : ∀ partials, Partials chunks partials → ∀ merged,
        mergeAll partials = .ok merged ↔ mergeAll chunks.flatten = .ok merged := by
      intro partials parts
      have partsNonempty : partials ≠ [] := by
        rintro rfl
        exact empty (List.forall₂_nil_right_iff.mp parts)
      exact merge_all_alike partials chunks.flatten partsNonempty flatNonempty
        (alike_partials chunks partials parts) determined
    apply to_option_congr
    intro merged
    rw [bind_ok_iff]
    constructor
    · rintro ⟨partials, ran, mergedOk⟩
      exact (second partials (chunks_merged chunks nonempty partials ran) merged).mp mergedOk
    · intro mergedOk
      obtain ⟨agreeing, -⟩ := (merge_all_ok_iff _ flatNonempty determined merged).mp mergedOk
      obtain ⟨partials, ran, parts⟩ := merge_chunks chunks nonempty agreeing
      exact ⟨partials, ran, (second partials parts merged).mpr mergedOk⟩

theorem merge_all_order_grouping (profiles : List Profile) (determined : KindDetermined profiles) :
    (∀ other : List Profile, profiles.Perm other →
      (mergeAll other).toOption = (mergeAll profiles).toOption) ∧
    ∀ chunks : List (List Profile), (∀ chunk ∈ chunks, chunk ≠ []) → chunks.flatten = profiles →
      (chunks.mapM mergeAll >>= mergeAll).toOption = (mergeAll profiles).toOption := by
  constructor
  · intro other same
    exact merge_all_perm profiles other same determined
  · rintro chunks nonempty rfl
    exact merge_all_chunks chunks nonempty determined

/-- A function that occurs twice in the first run, with and without values, and once in the second.
The same function was left out of both, for two reasons. -/
def firstRun : Profile :=
  { empty .text with
    records := [⟨"f", 1, [0xfffffffffffffffe, 3], none⟩, ⟨"f", 1, [5, 4], some ⟨[[⟨7, 2⟩]], []⟩⟩]
    skipped := [⟨some ⟨"h", 3⟩, .truncatedInput, "read past the end"⟩] }

def secondRun : Profile :=
  { empty .raw with
    version := some .v13
    records := [⟨"g", 2, [1], none⟩, ⟨"f", 1, [1, 1], some ⟨[[⟨7, 1⟩, ⟨6, 1⟩]], []⟩⟩]
    binaryIds := [[2, 1], [1]]
    skipped := [⟨some ⟨"h", 3⟩, .truncatedInput, "read past the end"⟩,
      ⟨some ⟨"h", 3⟩, .invalidEncoding, "bad number"⟩] }

theorem merge_all_order_grouping_twice :
    KindDetermined [firstRun, secondRun, firstRun] ∧
    (mergeAll [secondRun, firstRun, firstRun]).toOption =
      (mergeAll [firstRun, secondRun, firstRun]).toOption ∧
    ([[firstRun, secondRun], [firstRun]].mapM mergeAll >>= mergeAll).toOption =
      (mergeAll [firstRun, secondRun, firstRun]).toOption := by
  have determined : KindDetermined [firstRun, secondRun, firstRun] := by
    unfold KindDetermined
    decide
  obtain ⟨anyOrder, anyGroups⟩ :=
    merge_all_order_grouping [firstRun, secondRun, firstRun] determined
  refine ⟨determined, anyOrder _ (.swap _ _ _), anyGroups _ ?_ rfl⟩
  intro chunk member
  rcases List.mem_cons.mp member with rfl | last
  · exact List.cons_ne_nil _ _
  · cases List.mem_singleton.mp last
    exact List.cons_ne_nil _ _

end ExecCounts.Profile
