import ExecCounts.Proofs.TextProfile.Tokens
import ExecCounts.Proofs.Worth

set_option autoImplicit false

namespace ExecCounts

def ValueProfile.allSites (values : ValueProfile) : List Site := ValueKind.all.flatMap values.sites

def FunctionRecord.allSites (record : FunctionRecord) : List Site :=
  record.values.elim [] ValueProfile.allSites

namespace TextProfile

def sitesWorth (sites : List Site) : Nat := sites.length + sites.flatten.length

def recordWorth (record : FunctionRecord) : Nat :=
  record.counters.length + sitesWorth record.allSites

theorem sites_worth_append (first second : List Site) :
    sitesWorth (first ++ second) = sitesWorth first + sitesWorth second := by
  simp only [sitesWorth, List.length_append, List.flatten_append]
  omega

theorem sites_worth_sum (sites : List Site) :
    (sites.map fun site => site.length + 1).sum = sitesWorth sites := by
  induction sites with
  | nil => rfl
  | cons site sites ih =>
      simp only [List.map_cons, List.sum_cons, ih, sitesWorth, List.length_cons, List.flatten_cons,
        List.length_append]
      omega

theorem add_sites_worth (values : ValueProfile) (entry : ValueKind × List Site) :
    sitesWorth (addSites values entry).allSites = sitesWorth values.allSites + sitesWorth entry.2 := by
  obtain ⟨kind, sites⟩ := entry
  cases kind <;>
    simp [ValueProfile.allSites, ValueKind.all, sites_add_sites, sites_worth_append] <;> omega

theorem fold_sites_worth (listing : Listing) (values : ValueProfile) :
    sitesWorth (listing.foldl addSites values).allSites =
      sitesWorth values.allSites + (listing.map fun entry => sitesWorth entry.2).sum := by
  induction listing generalizing values with
  | nil => rfl
  | cons entry listing ih =>
      rw [List.foldl_cons, ih, add_sites_worth, List.map_cons, List.sum_cons, Nat.add_assoc]

def Script.left (script : Script) : Nat := script.lines.length

variable {credit : Nat}

theorem expect_covers (what : String) :
    Covers Script.left (expect what) credit fun _ => credit + 1 := by
  intro script line after ran
  rw [expect] at ran
  split at ran
  · rename_i line rest lines
    cases ran
    rw [Script.left, Script.left, lines, List.length_cons]
    dsimp only
    omega
  · cases ran

theorem expect_number_covers (what : String) :
    Covers Script.left (expectNumber what) credit fun _ => credit + 1 := by
  apply bind_covers (expect_covers what)
  intro line
  split
  · exact pure_covers (Nat.le_refl _)
  · exact throw_covers _ _

theorem observation_covers : Covers Script.left observation credit fun _ => credit + 1 := by
  apply bind_covers (expect_covers _)
  intro line
  split
  · exact pure_covers (Nat.le_refl _)
  · exact throw_covers _ _

theorem site_covers : Covers Script.left site credit fun found => credit + (found.length + 1) := by
  apply bind_covers (expect_number_covers _)
  intro count
  apply (times_covers_length (fun _ => observation_covers) _).mono
  intro found
  omega

theorem kind_covers :
    Covers Script.left kind credit fun found => credit + sitesWorth found.2 := by
  apply bind_covers (expect_covers _)
  intro line
  split
  · exact throw_covers _ _
  · apply bind_covers (expect_number_covers _)
    intro count
    apply bind_covers (times_covers (fun _ => site_covers) _)
    intro sites
    apply pure_covers
    rw [sites_worth_sum]
    dsimp only
    omega

theorem value_profile_covers :
    Covers Script.left valueProfile credit fun values => credit + sitesWorth values.allSites := by
  apply bind_covers (expect_number_covers _)
  intro count
  apply bind_covers (times_covers (fun _ => kind_covers) _)
  intro listing
  apply pure_covers
  have none : sitesWorth ValueProfile.empty.allSites = 0 := rfl
  rw [fold_sites_worth, none]
  omega

theorem optional_values_covers : Covers Script.left optionalValues credit
    fun values => credit + sitesWorth (values.elim [] ValueProfile.allSites) := by
  apply bind_covers get_covers
  intro script
  split
  · split
    · apply bind_covers (expect_covers _)
      intro line
      apply bind_covers value_profile_covers
      intro values
      apply pure_covers
      exact Nat.add_le_add_right (Nat.le_succ credit) _
    · exact pure_covers (Nat.le_refl _)
  · exact pure_covers (Nat.le_refl _)

theorem take_numbers_length (lines : List Line) (last : Nat) :
    (takeNumbers lines last).1.length + (takeNumbers lines last).2.lines.length = lines.length := by
  induction lines generalizing last with
  | nil => rfl
  | cons line rest ih =>
      rw [takeNumbers]
      split
      · have later := ih line.number
        rw [List.length_cons, List.length_cons, ← later]
        dsimp only
        omega
      · exact Nat.zero_add _

theorem counters_covers :
    Covers Script.left counters credit fun found => credit + found.length := by
  intro script found after ran
  cases ran
  have all := take_numbers_length script.lines script.last
  rw [Script.left, Script.left]
  dsimp only
  omega

theorem block_covers (line : Line) : Covers Script.left (block line) (credit + 1)
    fun entry => credit + Transcript.entryWorth 3 recordWorth entry := by
  apply check_covers
  apply bind_covers (expect_number_covers _)
  intro hash
  apply bind_covers (expect_covers _)
  intro countLine
  split
  · exact throw_covers _ _
  · apply bind_covers counters_covers
    intro found
    apply bind_covers optional_values_covers
    intro values
    split
    · apply pure_covers
      change credit + (3 + (found.length + sitesWorth (values.elim [] ValueProfile.allSites))) ≤ _
      omega
    · apply pure_covers
      change credit + 3 ≤ _
      omega

theorem blocks_worth (fuel : Nat) (script : Script) :
    ((blocks fuel script).entries.map (Transcript.entryWorth 3 recordWorth)).sum ≤ script.left := by
  induction fuel generalizing script with
  | zero => exact Nat.zero_le _
  | succ fuel ih =>
      rw [blocks, Script.left]
      cases script.lines with
      | nil => exact Nat.zero_le _
      | cons line rest =>
          dsimp only
          cases ran : block line ⟨rest, line.number⟩ with
          | error failure after => exact Nat.zero_le _
          | ok entry after =>
              have own : after.left + (0 + Transcript.entryWorth 3 recordWorth entry) ≤
                  rest.length + (0 + 1) := block_covers line _ entry after ran
              have later := ih after
              simp only [Transcript.cons, List.map_cons, List.sum_cons, List.length_cons]
              omega

theorem header_left (variant changed : Variant) (last : Nat) (lines : List Line) (body : Script)
    (opened : header variant last lines = .ok (changed, body)) : body.left ≤ lines.length := by
  induction lines generalizing variant last with
  | nil =>
      cases opened
      exact Nat.le_refl 0
  | cons line rest ih =>
      rw [header] at opened
      split at opened
      · split at opened
        · cases opened
        · split at opened
          · exact Nat.le_succ_of_le (ih _ _ opened)
          · cases opened
      · cases opened
        exact Nat.le_refl _

def lineCount (data : Bytes) : Nat :=
  match Utf8.read data with
  | .ok text => Line.count text
  | .error _ => 0

theorem lines_le_count {data : Bytes} {found : List Line} (read : lines data = .ok found) :
    found.length ≤ lineCount data := by
  rw [lines] at read
  rw [lineCount]
  cases decoded : Utf8.read data with
  | ok text =>
      rw [decoded] at read
      cases read
      exact Line.length_of_text_le_count text
  | error valid =>
      rw [decoded] at read
      cases read

def opening (data : Bytes) : Except Failure (Variant × Script) := do
  header .plain 0 (← lines data)

theorem opening_left {data : Bytes} {variant : Variant} {body : Script}
    (opened : opening data = .ok (variant, body)) : body.left ≤ lineCount data := by
  obtain ⟨found, read, header⟩ := (bind_ok_iff _ _ _).mp opened
  exact Nat.le_trans (header_left _ _ _ _ _ header) (lines_le_count read)

theorem transcript_opening {data : Bytes} {variant : Variant}
    {functions : Transcript FunctionRecord Unit}
    (read : transcript data = .ok (variant, functions)) : ∃ body,
      opening data = .ok (variant, body) ∧ functions = blocks body.lines.length body := by
  obtain ⟨found, linesRead, rest⟩ := (bind_ok_iff _ _ _).mp read
  obtain ⟨⟨changed, body⟩, opened, same⟩ := (bind_ok_iff _ _ _).mp rest
  cases same
  exact ⟨body, (bind_ok_iff _ _ _).mpr ⟨found, linesRead, opened⟩, rfl⟩

theorem parse_worth (policy : Policy) (data : Bytes) (profile : Profile)
    (parsed : parse policy data = .ok profile) :
    3 * (profile.records.length + profile.skipped.length) + (profile.records.map recordWorth).sum ≤
      lineCount data := by
  obtain ⟨⟨variant, functions⟩, read, settles⟩ := (bind_ok_iff _ _ _).mp parsed
  obtain ⟨⟨records, skipped⟩, settled, same⟩ := (bind_ok_iff _ _ _).mp settles
  cases same
  obtain ⟨body, opened, rfl⟩ := transcript_opening read
  have few := blocks_worth body.lines.length body
  rw [← Transcript.settled_worth policy _ records skipped settled] at few
  exact Nat.le_trans few (opening_left opened)

end TextProfile

end ExecCounts
