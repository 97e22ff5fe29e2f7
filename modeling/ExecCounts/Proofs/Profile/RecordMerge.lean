import ExecCounts.Proofs.Profile.Total

set_option autoImplicit false

namespace ExecCounts

namespace ValueProfile

variable (mine other : ValueProfile)

theorem merge_kinds_fit (kind : ValueKind) (kinds : List ValueKind)
    (same : (mine.sites kind).length = (other.sites kind).length) :
    mergeKinds other (kind :: kinds) mine = mergeKinds other kinds
      (mine.withSites (List.zipWith Site.merge (mine.sites kind) (other.sites kind)) kind) :=
  if_pos same

theorem merge_kinds_unfit (kind : ValueKind) (kinds : List ValueKind)
    (differ : (mine.sites kind).length ≠ (other.sites kind).length) :
    ∃ failure, mergeKinds other (kind :: kinds) mine = ⟨mine, some failure⟩ ∧
      failure.kind = .counterCountMismatch :=
  ⟨_, if_neg differ, rfl⟩

theorem merge_fits (same : ∀ kind, (mine.sites kind).length = (other.sites kind).length) :
    mine.merge other =
      ⟨⟨List.zipWith Site.merge mine.indirectCallTargets other.indirectCallTargets,
        List.zipWith Site.merge mine.memOpSizes other.memOpSizes⟩, none⟩ := by
  rw [merge, ValueKind.all, merge_kinds_fit mine other _ _ (same .indirectCallTarget)]
  exact merge_kinds_fit (mine.withSites _ .indirectCallTarget) other .memOpSize []
    (same .memOpSize)

def partlyMerged : ValueProfile :=
  if mine.indirectCallTargets.length = other.indirectCallTargets.length then
    { mine with indirectCallTargets :=
        List.zipWith Site.merge mine.indirectCallTargets other.indirectCallTargets }
  else mine

theorem merge_unfit (kind : ValueKind)
    (differ : (mine.sites kind).length ≠ (other.sites kind).length) :
    ∃ failure, mine.merge other = ⟨mine.partlyMerged other, some failure⟩ ∧
      failure.kind = .counterCountMismatch := by
  rw [merge, ValueKind.all, partlyMerged]
  by_cases calls : mine.indirectCallTargets.length = other.indirectCallTargets.length
  · have sizes : (mine.sites .memOpSize).length ≠ (other.sites .memOpSize).length := by
      cases kind with
      | indirectCallTarget => exact absurd calls differ
      | memOpSize => exact differ
    rw [merge_kinds_fit mine other .indirectCallTarget [.memOpSize] calls, if_pos calls]
    exact merge_kinds_unfit (mine.withSites _ .indirectCallTarget) other .memOpSize [] sizes
  · rw [if_neg calls]
    exact merge_kinds_unfit mine other .indirectCallTarget [.memOpSize] calls

end ValueProfile

namespace FunctionRecord

structure Fits (first second : FunctionRecord) : Prop where
  counters : first.counters.length = second.counters.length
  sites : ∀ mine ∈ first.values, ∀ other ∈ second.values, ∀ kind,
    (mine.sites kind).length = (other.sites kind).length

theorem Fits.refl (record : FunctionRecord) : Fits record record where
  counters := rfl
  sites := by
    intro mine found other alsoFound kind
    rw [Option.mem_def] at found alsoFound
    cases found.symm.trans alsoFound
    rfl

theorem Fits.symm {first second : FunctionRecord} (fits : Fits first second) : Fits second first where
  counters := fits.counters.symm
  sites := fun mine found other alsoFound kind =>
    (fits.sites other alsoFound mine found kind).symm

def Consistent (group : List FunctionRecord) : Prop :=
  ∀ first ∈ group, ∀ second ∈ group, Fits first second

theorem sites_total_normal (group : List FunctionRecord) (kind : ValueKind) :
    (sitesTotal group kind).map Site.normalize = sitesTotal group kind := by
  rw [sitesTotal, List.map_map]
  apply List.map_congr_left
  intro index _
  have again := Site.normalize_part [] (group.flatMap fun record => record.siteAt kind index) []
  simpa [siteTotal] using again

theorem total_single (record : FunctionRecord) : total [record] record.id = record.normalize := by
  have counters : (List.range (counterLength [record])).map (counterTotal [record]) =
      record.counters := by
    apply List.ext_getElem
    · simp [counterLength, greatest]
    · intro index _ bound
      simp [counterTotal, bound, Count.clamp_self]
  have sites : ∀ values, record.values = some values → ∀ kind,
      sitesTotal [record] kind = (values.sites kind).map Site.normalize := by
    intro values found kind
    apply List.ext_getElem
    · simp [sitesTotal, siteLength, greatest, siteCount, found]
    · intro index _ bound
      rw [List.length_map] at bound
      simp [sitesTotal, siteTotal, siteAt, found, bound]
  rw [total, counters, normalize, valuesTotal]
  cases found : record.values with
  | none => simp [id, found]
  | some values =>
      simp [id, found, sites values found, ValueProfile.normalize, ValueProfile.sites]

def partlyMerged (ours theirs : FunctionRecord) : FunctionRecord :=
  if ours.counters.length = theirs.counters.length then
    { ours with
      counters := List.zipWith Count.add ours.counters theirs.counters
      values := match ours.values, theirs.values with
        | some mine, some other => some (mine.partlyMerged other)
        | known, _ => known }
  else ours

theorem merge_unfit (ours theirs : FunctionRecord) (unfit : ¬ Fits ours theirs) :
    ∃ failure, ours.merge theirs = ⟨ours.partlyMerged theirs, some failure⟩ ∧
      failure.kind = .counterCountMismatch ∧ failure.function = some ours.id := by
  rw [merge, partlyMerged]
  by_cases counters : ours.counters.length = theirs.counters.length
  · have sites : ¬ ∀ mine ∈ ours.values, ∀ other ∈ theirs.values, ∀ kind,
        (mine.sites kind).length = (other.sites kind).length :=
      fun sites => unfit ⟨counters, sites⟩
    simp only [not_forall] at sites
    obtain ⟨mine, found, other, alsoFound, kind, differ⟩ := sites
    obtain ⟨failure, merged, blame⟩ := ValueProfile.merge_unfit mine other kind differ
    rw [Option.mem_def] at found alsoFound
    simp only [if_pos counters, found, alsoFound, merged]
    exact ⟨_, rfl, blame, rfl⟩
  · simp only [if_neg counters]
    exact ⟨_, rfl, rfl, rfl⟩

section Total

variable (group : List FunctionRecord) (id : FunctionId) (record : FunctionRecord)

theorem counter_length_snoc : counterLength (group ++ [record]) =
    max (counterLength group) record.counters.length := by
  simp only [counterLength, List.map_append, List.map_cons, List.map_nil, greatest_append,
    greatest_single]

theorem site_length_snoc (kind : ValueKind) : siteLength (group ++ [record]) kind =
    max (siteLength group kind) (record.siteCount kind) := by
  simp only [siteLength, List.map_append, List.map_cons, List.map_nil, greatest_append,
    greatest_single]

theorem site_total_snoc (kind : ValueKind) (index : Nat) :
    siteTotal (group ++ [record]) kind index =
      Site.normalize (siteTotal group kind index ++ record.siteAt kind index) := by
  have once := Site.normalize_part [] (group.flatMap fun record => record.siteAt kind index)
    (record.siteAt kind index)
  simp only [List.nil_append] at once
  simp only [siteTotal, once, List.flatMap_append, List.flatMap_cons, List.flatMap_nil,
    List.append_nil]

theorem counters_added (same : counterLength group = record.counters.length) :
    List.zipWith Count.add (total group id).counters record.counters =
      (total (group ++ [record]) id).counters := by
  have length : counterLength (group ++ [record]) = record.counters.length := by
    rw [counter_length_snoc, same, Nat.max_self]
  apply List.ext_getElem
  · simp [total, same, length]
  · intro index _ bound
    simp only [total, List.length_map, List.length_range, length] at bound
    simp [total, counterTotal, bound, Count.add_clamp]

theorem sites_added (kind : ValueKind) (values : ValueProfile) (found : record.values = some values)
    (same : siteLength group kind = (values.sites kind).length) :
    (List.zipWith Site.merge (sitesTotal group kind) (values.sites kind)).map Site.normalize =
      sitesTotal (group ++ [record]) kind := by
  have count : record.siteCount kind = (values.sites kind).length := by rw [siteCount, found]
  have length : siteLength (group ++ [record]) kind = (values.sites kind).length := by
    rw [site_length_snoc, same, count, Nat.max_self]
  apply List.ext_getElem
  · simp [sitesTotal, same, length]
  · intro index _ bound
    simp only [sitesTotal, List.length_map, List.length_range, length] at bound
    have own : record.siteAt kind index = (values.sites kind)[index] := by
      simp [siteAt, found, bound]
    have twice := Site.normalize_part [] (siteTotal group kind index ++ (values.sites kind)[index]) []
    simp only [List.nil_append, List.append_nil] at twice
    simp [sitesTotal, site_total_snoc, own, Site.merge, twice]

theorem sites_kept (kind : ValueKind) (missing : record.values = none) :
    sitesTotal (group ++ [record]) kind = sitesTotal group kind := by
  have count : record.siteCount kind = 0 := by rw [siteCount, missing]
  rw [sitesTotal, sitesTotal, site_length_snoc, count, Nat.max_zero]
  apply List.map_congr_left
  intro index _
  have again := Site.normalize_part [] (group.flatMap fun record => record.siteAt kind index) []
  simp only [List.nil_append, List.append_nil] at again
  rw [site_total_snoc, siteAt, missing, List.append_nil, siteTotal, again]

theorem sites_new (kind : ValueKind) (values : ValueProfile) (found : record.values = some values)
    (none_known : ¬ (group.any fun record => record.values.isSome) = true) :
    sitesTotal (group ++ [record]) kind = (values.sites kind).map Site.normalize := by
  have none_before := site_length_none group kind none_known
  have count : record.siteCount kind = (values.sites kind).length := by rw [siteCount, found]
  have length : siteLength (group ++ [record]) kind = (values.sites kind).length := by
    rw [site_length_snoc, none_before, count, Nat.zero_max]
  apply List.ext_getElem
  · simp [sitesTotal, length]
  · intro index _ bound
    rw [List.length_map] at bound
    have own : record.siteAt kind index = (values.sites kind)[index] := by
      simp [siteAt, found, bound]
    have nothing := site_total_beyond group kind index (by omega)
    simp [sitesTotal, site_total_snoc, own, nothing]

theorem merge_total (fits : Fits (total group id) record) :
    (total group id).merge record = ⟨total (group ++ [record]) id, none⟩ := by
  have same : counterLength group = record.counters.length := by
    simpa [total] using fits.counters
  have counters := counters_added group id record same
  -- the sum differs from what is there in its counters and values only
  have whole : ∀ values : Option ValueProfile, values = valuesTotal (group ++ [record]) →
      (⟨⟨id.name, id.hash, List.zipWith Count.add (total group id).counters record.counters,
        values⟩, none⟩ : Attempt FunctionRecord) = ⟨total (group ++ [record]) id, none⟩ := by
    intro values totals
    rw [counters, totals]
    rfl
  rw [merge, if_pos fits.counters]
  dsimp only
  by_cases known : (group.any fun record => record.values.isSome) = true
  · have mine : (total group id).values =
        some ⟨sitesTotal group .indirectCallTarget, sitesTotal group .memOpSize⟩ := by
      simp [total, valuesTotal, known]
    have still : ((group ++ [record]).any fun record => record.values.isSome) = true := by
      rw [List.any_append, known, Bool.true_or]
    cases found : record.values with
    | none =>
        rw [mine]
        apply whole
        rw [valuesTotal, if_pos still, sites_kept _ _ _ found, sites_kept _ _ _ found]
        simp only [ValueProfile.normalize, sites_total_normal]
    | some values =>
        have lengths := fits.sites _ mine values found
        have first : siteLength group .indirectCallTarget =
            (values.sites .indirectCallTarget).length := by
          simpa [ValueProfile.sites, sitesTotal] using lengths .indirectCallTarget
        have second : siteLength group .memOpSize = (values.sites .memOpSize).length := by
          simpa [ValueProfile.sites, sitesTotal] using lengths .memOpSize
        have firstAdded := sites_added group record .indirectCallTarget values found first
        have secondAdded := sites_added group record .memOpSize values found second
        rw [mine]
        dsimp only
        rw [ValueProfile.merge_fits _ _ lengths]
        apply whole
        rw [valuesTotal, if_pos still, ← firstAdded, ← secondAdded]
        rfl
  · have mine : (total group id).values = none := by
      simp [total, valuesTotal, known]
    rw [mine]
    cases found : record.values with
    | none =>
        have still : ¬ ((group ++ [record]).any fun record => record.values.isSome) = true := by
          simpa [found] using known
        apply whole
        rw [valuesTotal, if_neg still]
    | some values =>
        have now : ((group ++ [record]).any fun record => record.values.isSome) = true := by
          simp [found]
        apply whole
        rw [valuesTotal, if_pos now, sites_new group record _ values found known,
          sites_new group record _ values found known]
        rfl

end Total

section Shape

variable (group : List FunctionRecord) (consistent : Consistent group)

include consistent

theorem counter_length_eq (record : FunctionRecord) (member : record ∈ group) :
    counterLength group = record.counters.length := by
  apply greatest_eq
  · exact List.mem_map_of_mem member
  · intro length listed
    obtain ⟨other, otherMember, rfl⟩ := List.mem_map.mp listed
    exact Nat.le_of_eq (consistent other otherMember record member).counters

theorem site_length_eq (record : FunctionRecord) (member : record ∈ group) (values : ValueProfile)
    (found : record.values = some values) (kind : ValueKind) :
    siteLength group kind = (values.sites kind).length := by
  have own : record.siteCount kind = (values.sites kind).length := by rw [siteCount, found]
  apply greatest_eq
  · exact List.mem_map.mpr ⟨record, member, own⟩
  · intro count listed
    obtain ⟨other, otherMember, rfl⟩ := List.mem_map.mp listed
    cases otherFound : other.values with
    | none =>
        rw [siteCount, otherFound]
        exact Nat.zero_le _
    | some others =>
        rw [siteCount, otherFound]
        exact Nat.le_of_eq ((consistent other otherMember record member).sites others otherFound
          values found kind)

theorem fits_total_iff (id : FunctionId) (record : FunctionRecord) (nonempty : group ≠ []) :
    Fits (total group id) record ↔ ∀ other ∈ group, Fits other record := by
  have length : (total group id).counters.length = counterLength group := by simp [total]
  have kinds : ∀ mine ∈ (total group id).values, ∀ kind,
      (mine.sites kind).length = siteLength group kind := by
    intro mine found kind
    rw [Option.mem_def] at found
    have count := total_site_count group id kind
    rwa [siteCount, found] at count
  constructor
  · intro fits other member
    refine ⟨?_, ?_⟩
    · rw [← counter_length_eq group consistent other member, ← length, fits.counters]
    · intro values found others otherFound kind
      have known : (total group id).values.isSome = true := by
        rw [total_values_known]
        exact List.any_eq_true.mpr ⟨other, member, Option.isSome_of_mem found⟩
      obtain ⟨mine, mineFound⟩ := Option.isSome_iff_exists.mp known
      rw [← site_length_eq group consistent other member values found, ← kinds mine mineFound]
      exact fits.sites mine mineFound others otherFound kind
  · intro all
    obtain ⟨first, member⟩ := List.exists_mem_of_ne_nil group nonempty
    refine ⟨?_, ?_⟩
    · rw [length, counter_length_eq group consistent first member]
      exact (all first member).counters
    · intro mine found others otherFound kind
      have known := Option.isSome_of_mem found
      rw [total_values_known] at known
      obtain ⟨other, otherMember, otherKnown⟩ := List.any_eq_true.mp known
      obtain ⟨values, valuesFound⟩ := Option.isSome_iff_exists.mp otherKnown
      rw [kinds mine found, site_length_eq group consistent other otherMember values valuesFound]
      exact (all other otherMember).sites values valuesFound others otherFound kind

end Shape

end FunctionRecord

end ExecCounts
