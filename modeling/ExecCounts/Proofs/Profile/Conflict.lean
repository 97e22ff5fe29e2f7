import ExecCounts.Proofs.Profile.MergeRecords

set_option autoImplicit false

namespace ExecCounts

theorem Count.add_eq_self_iff (count more : Count) :
    Count.add count more = count ↔ more = 0 ∨ count.toNat = Count.limit := by
  rw [← UInt64.toNat_inj, Count.to_nat_add, ← UInt64.toNat_inj, UInt64.toNat_zero]
  have bound := Count.to_nat_le_limit count
  omega

theorem zip_with_eq_self_iff {α β : Type} (f : α → β → α) (first : List α) (second : List β)
    (same : first.length = second.length) : List.zipWith f first second = first ↔
      ∀ pair ∈ first.zip second, f pair.1 pair.2 = pair.1 := by
  induction first generalizing second with
  | nil => simp
  | cons a first ih =>
      cases second with
      | nil => cases same
      | cons b second =>
          rw [List.zipWith_cons_cons, List.cons.injEq, ih second (Nat.succ.inj same),
            List.zip_cons_cons, List.forall_mem_cons]

namespace ValueProfile

def Untouched (mine other : ValueProfile) : Prop :=
  mine.indirectCallTargets.length = other.indirectCallTargets.length →
    ∀ pair ∈ mine.indirectCallTargets.zip other.indirectCallTargets, pair.1.merge pair.2 = pair.1

variable (mine other : ValueProfile)

theorem partly_merged_eq_self_iff : mine.partlyMerged other = mine ↔ Untouched mine other := by
  rw [partlyMerged, Untouched]
  by_cases calls : mine.indirectCallTargets.length = other.indirectCallTargets.length
  · have merged := zip_with_eq_self_iff Site.merge _ _ calls
    rw [if_pos calls, ← merged]
    cases mine
    simp [calls]
  · simp [calls]

theorem failed_merge (failed : (mine.merge other).failure ≠ none) :
    (mine.merge other).state = mine.partlyMerged other := by
  have unfit : ¬ ∀ kind, (mine.sites kind).length = (other.sites kind).length := by
    intro same
    rw [merge_fits mine other same] at failed
    exact failed rfl
  obtain ⟨kind, differ⟩ := not_forall.mp unfit
  obtain ⟨failure, merged, -⟩ := merge_unfit mine other kind differ
  rw [merged]

end ValueProfile

namespace FunctionRecord

/-- Merging stops at the counters, or all that is added before it stops changes nothing. -/
def Untouched (ours theirs : FunctionRecord) : Prop :=
  ours.counters.length = theirs.counters.length →
    (∀ pair ∈ ours.counters.zip theirs.counters, pair.2 = 0 ∨ pair.1.toNat = Count.limit) ∧
    ∀ mine ∈ ours.values, ∀ other ∈ theirs.values, mine.Untouched other

variable (ours theirs : FunctionRecord)

theorem partly_merged_eq_self_iff : ours.partlyMerged theirs = ours ↔ Untouched ours theirs := by
  obtain ⟨name, hash, counters, values⟩ := ours
  rw [partlyMerged, Untouched]
  by_cases lengths : counters.length = theirs.counters.length
  · have counts := zip_with_eq_self_iff Count.add _ _ lengths
    simp only [Count.add_eq_self_iff] at counts
    rw [if_pos lengths, ← counts]
    cases values with
    | none => simp [lengths]
    | some mine =>
        cases theirs.values with
        | none => simp [lengths]
        | some other => simp [lengths, ValueProfile.partly_merged_eq_self_iff]
  · simp [lengths]

theorem merge_fits (fits : Fits ours theirs) : (ours.merge theirs).failure = none := by
  rw [merge, if_pos fits.counters]
  dsimp only
  cases mineFound : ours.values with
  | none => cases theirs.values <;> rfl
  | some mine =>
      cases otherFound : theirs.values with
      | none => rfl
      | some other =>
          dsimp only
          rw [ValueProfile.merge_fits mine other (fits.sites mine mineFound other otherFound)]

theorem failed_merge (failed : (ours.merge theirs).failure ≠ none) :
    (ours.merge theirs).state = ours.partlyMerged theirs := by
  obtain ⟨failure, merged, -, -⟩ := merge_unfit ours theirs fun fits => failed (merge_fits _ _ fits)
  rw [merged]

theorem failed_merge_unchanged_iff (ours theirs : FunctionRecord) (mine other : ValueProfile) :
    ((ours.merge theirs).failure ≠ none →
      (ours.merge theirs).state = ours.partlyMerged theirs ∧
        ((ours.merge theirs).state = ours ↔ ours.Untouched theirs)) ∧
    ((mine.merge other).failure ≠ none →
      (mine.merge other).state = mine.partlyMerged other ∧
        ((mine.merge other).state = mine ↔ mine.Untouched other)) := by
  constructor
  · intro failed
    have left := failed_merge ours theirs failed
    exact ⟨left, by rw [left, partly_merged_eq_self_iff]⟩
  · intro failed
    have left := ValueProfile.failed_merge mine other failed
    exact ⟨left, by rw [left, ValueProfile.partly_merged_eq_self_iff]⟩

/-- The sites of the second kind do not fit together. By then the counters and the sites of the
first kind have been added. -/
def receiver : FunctionRecord := ⟨"f", 1, [1, 7], some ⟨[[⟨5, 1⟩]], []⟩⟩

def misfit : FunctionRecord := ⟨"f", 1, [2, 0], some ⟨[[⟨5, 2⟩, ⟨3, 1⟩]], [[]]⟩⟩

def leftover : FunctionRecord := ⟨"f", 1, [3, 7], some ⟨[[⟨3, 1⟩, ⟨5, 3⟩]], []⟩⟩

theorem failed_merge_unchanged_iff_misfit :
    ((receiver.merge misfit).failure ≠ none ∧
      (receiver.merge misfit).state = receiver.partlyMerged misfit ∧
      ((receiver.merge misfit).state = receiver ↔ receiver.Untouched misfit)) ∧
    ((ValueProfile.merge ⟨[], []⟩ ⟨[[]], []⟩).failure ≠ none ∧
      (ValueProfile.merge ⟨[], []⟩ ⟨[[]], []⟩).state =
        ValueProfile.partlyMerged ⟨[], []⟩ ⟨[[]], []⟩ ∧
      ((ValueProfile.merge ⟨[], []⟩ ⟨[[]], []⟩).state = ⟨[], []⟩ ↔
        ValueProfile.Untouched ⟨[], []⟩ ⟨[[]], []⟩)) := by
  have recordsFail : (receiver.merge misfit).failure ≠ none := by decide +kernel
  have valuesFail : (ValueProfile.merge ⟨[], []⟩ ⟨[[]], []⟩).failure ≠ none := by decide +kernel
  have both := failed_merge_unchanged_iff receiver misfit ⟨[], []⟩ ⟨[[]], []⟩
  exact ⟨⟨recordsFail, both.1 recordsFail⟩, valuesFail, both.2 valuesFail⟩

theorem failed_merge_adds_counts :
    (receiver.merge misfit).failure ≠ none ∧ (receiver.merge misfit).state = leftover ∧
    leftover ≠ receiver ∧
    ∃ mine ∈ receiver.values, ∃ other ∈ misfit.values,
      (mine.merge other).failure ≠ none ∧ (mine.merge other).state ≠ mine := by
  decide +kernel

end FunctionRecord

namespace Profile

open FunctionRecord (Consistent)

def Conflict (records : List FunctionRecord) (id : FunctionId) : Prop :=
  ∃ first ∈ records, ∃ second ∈ records, first.id = id ∧ second.id = id ∧
    (first.counters.length ≠ second.counters.length ∨
      ∃ mine ∈ first.values, ∃ other ∈ second.values, ∃ kind,
        (mine.sites kind).length ≠ (other.sites kind).length)

theorem conflict_iff (records : List FunctionRecord) (id : FunctionId) :
    Conflict records id ↔ ¬ Consistent (recordsOf records id) := by
  have listed : ∀ record, record ∈ recordsOf records id ↔ record ∈ records ∧ record.id = id := by
    intro record
    rw [recordsOf, List.mem_filter, beq_iff_eq]
  constructor
  · rintro ⟨first, firstMember, second, secondMember, firstId, secondId, differ⟩ consistent
    have fits := consistent first ((listed first).mpr ⟨firstMember, firstId⟩) second
      ((listed second).mpr ⟨secondMember, secondId⟩)
    rcases differ with counters | ⟨mine, found, other, alsoFound, kind, sites⟩
    · exact counters fits.counters
    · exact sites (fits.sites mine found other alsoFound kind)
  · intro inconsistent
    simp only [Consistent, not_forall] at inconsistent
    obtain ⟨first, firstMember, second, secondMember, unfit⟩ := inconsistent
    obtain ⟨firstMember, firstId⟩ := (listed first).mp firstMember
    obtain ⟨secondMember, secondId⟩ := (listed second).mp secondMember
    refine ⟨first, firstMember, second, secondMember, firstId, secondId, ?_⟩
    by_contra fits
    simp only [not_or, not_not, not_exists, not_and] at fits
    exact unfit ⟨fits.1, fits.2⟩

theorem merge_fails_iff_conflict (ours theirs : Profile) :
    ((ours.merge theirs).failure ≠ none ↔
      ∃ id, Conflict (ours.records ++ theirs.records) id) ∧
    ∀ failure, (ours.merge theirs).failure = some failure →
      failure.kind = .counterCountMismatch ∧
      (∃ id, failure.function = some id ∧ Conflict (ours.records ++ theirs.records) id) ∧
      (ours.merge theirs).state = ours := by
  have agreeing_iff : Agreeing (ours.records ++ theirs.records) ↔
      ¬ ∃ id, Conflict (ours.records ++ theirs.records) id := by
    simp only [conflict_iff, not_exists, not_not]
    rfl
  by_cases agreeing : Agreeing (ours.records ++ theirs.records)
  · obtain ⟨sums, -, ran⟩ := merge_records_agreeing _ agreeing
    have succeeded : (ours.merge theirs).failure = none := by
      rw [merge, combine, ran]
      rfl
    rw [succeeded]
    exact ⟨⟨fun failed => absurd rfl failed, fun found => absurd found (agreeing_iff.mp agreeing)⟩,
      nofun⟩
  · obtain ⟨failure, failed, kind, id, named, inconsistent⟩ := merge_records_conflict _ agreeing
    have stopped : ours.merge theirs = ⟨ours, some failure⟩ := by
      rw [merge, combine, failed]
      rfl
    have conflict := (conflict_iff _ id).mpr inconsistent
    rw [stopped]
    refine ⟨⟨fun _ => ⟨id, conflict⟩, fun _ => nofun⟩, ?_⟩
    rintro _ ⟨⟩
    exact ⟨kind, ⟨id, named, conflict⟩, rfl⟩

def siteless : Profile :=
  { empty .text with
    records := [⟨"f", 1, [1], none⟩, ⟨"f", 1, [2], some ⟨[[], []], []⟩⟩, ⟨"g", 1, [], none⟩] }

def sited : Profile :=
  { empty .text with
    records := [⟨"f", 2, [], none⟩, ⟨"f", 1, [3], some ⟨[[]], []⟩⟩] }

theorem merge_fails_iff_conflict_sites : ∃ failure,
    (siteless.merge sited).failure = some failure ∧ failure.kind = .counterCountMismatch ∧
    (∃ id, failure.function = some id ∧ Conflict (siteless.records ++ sited.records) id) ∧
    (siteless.merge sited).state = siteless := by
  have failed : (siteless.merge sited).failure.isSome = true := by decide +kernel
  obtain ⟨failure, found⟩ := Option.isSome_iff_exists.mp failed
  exact ⟨failure, found, (merge_fails_iff_conflict siteless sited).2 failure found⟩

end Profile

end ExecCounts
