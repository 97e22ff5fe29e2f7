import ExecCounts.Proofs.Text.Numeral
import ExecCounts.Proofs.Utf8
import ExecCounts.TextProfile.Writer

set_option autoImplicit false

namespace ExecCounts.TextProfile

def isPlain (b : UInt8) : Bool :=
  (0x21 ≤ b && b ≤ 0x7E) || b == 0x20 || b == 0x09 || b == 0x0A || b == 0x0C || b == 0x0D

theorem is_text_eq (data : Bytes) : isText data = (data.take 64).all isPlain :=
  rfl

def printed (lines : List String) : Bytes := lines.flatMap fun line => Utf8.bytes line ++ [0x0A]

theorem bytes_lines (lines : List String) :
    Utf8.bytes (String.join (lines.map (· ++ "\n"))) = printed lines := by
  rw [Utf8.bytes_join, List.flatMap_map, printed]
  congr 1
  funext line
  rw [Utf8.bytes, Utf8.encode, String.toList_append, List.flatMap_append]
  rfl

theorem printed_append (first second : List String) :
    printed (first ++ second) = printed first ++ printed second :=
  List.flatMap_append

def nameOffset (variant : Variant) (before : List FunctionRecord) : Nat :=
  (printed (headerLines variant ++ before.flatMap recordLines)).length

/-- What lies of each name within the first 64 bytes is plain. -/
def StartsPlain (profile : Profile) : Prop :=
  ∀ before record after, profile.records = before ++ record :: after →
    ((Utf8.bytes record.name).take (64 - nameOffset profile.variant before)).all isPlain

section Plain

theorem plain_of_ascii (c : Char) (printable : 0x20 ≤ c.toNat ∧ c.toNat < 0x7F) :
    ∀ b ∈ String.utf8EncodeChar c, isPlain b = true := by
  have value : c.val.toNat = c.toNat := rfl
  have ascii : c.toNat ≤ 0x7F := by omega
  intro b member
  rw [String.utf8EncodeChar, value] at member
  simp only [if_pos ascii, List.mem_singleton] at member
  subst member
  have byte : (UInt8.ofNat c.toNat).toNat = c.toNat := Utf8.byte_to_nat _ (by omega)
  have above : c.toNat = 0x20 ∨ 0x21 ≤ c.toNat := by omega
  obtain space | above := above
  · rw [space]
    decide
  · have bounds : 0x21 ≤ UInt8.ofNat c.toNat ∧ UInt8.ofNat c.toNat ≤ 0x7E := by
      rw [UInt8.le_iff_toNat_le, UInt8.le_iff_toNat_le, byte]
      exact ⟨above, Nat.le_of_lt_succ printable.2⟩
    simp [isPlain, bounds]

def PlainLine (line : String) : Prop := ∀ c ∈ line.toList, 0x20 ≤ c.toNat ∧ c.toNat < 0x7F

instance (line : String) : Decidable (PlainLine line) := List.decidableBAll _ line.toList

theorem plain_line_bytes (line : String) (plain : PlainLine line) :
    ∀ b ∈ Utf8.bytes line ++ [0x0A], isPlain b = true := by
  intro b member
  obtain inside | last := List.mem_append.mp member
  · obtain ⟨c, listed, coded⟩ := List.mem_flatMap.mp inside
    exact plain_of_ascii c (plain c listed) b coded
  · cases List.mem_singleton.mp last
    decide

theorem plain_lines_all (lines : List String) (plain : ∀ line ∈ lines, PlainLine line) (n : Nat) :
    ((printed lines).take n).all isPlain = true := by
  rw [List.all_eq_true]
  intro b member
  obtain ⟨line, listed, inside⟩ := List.mem_flatMap.mp (List.mem_of_mem_take member)
  exact plain_line_bytes line (plain line listed) b inside

theorem plain_decimal (n : Nat) : PlainLine (Numeral.decimal n) := by
  intro c member
  have between := Numeral.is_digit_between c (Numeral.mem_decimal n c member)
  omega

theorem plain_header (variant : Variant) : ∀ line ∈ headerLines variant, PlainLine line := by
  obtain ⟨ir, contextSensitive, entryFirst⟩ := variant
  cases ir <;> cases contextSensitive <;> cases entryFirst <;> decide +kernel

theorem plain_observation (seen : Observation) :
    PlainLine (Numeral.decimal seen.value.toNat ++ ":" ++ Numeral.decimal seen.count.toNat) := by
  intro c member
  rw [String.toList_append, String.toList_append, List.mem_append, List.mem_append] at member
  obtain (value | colon) | count := member
  · exact plain_decimal _ c value
  · cases List.mem_singleton.mp colon
    decide
  · exact plain_decimal _ c count

theorem plain_site (site : Site) : ∀ line ∈ siteLines site, PlainLine line := by
  rw [siteLines, List.forall_mem_cons, List.forall_mem_map]
  exact ⟨plain_decimal _, fun seen _ => plain_observation seen⟩

theorem plain_kind (values : ValueProfile) (kind : ValueKind) :
    ∀ line ∈ kindLines values kind, PlainLine line := by
  have title : PlainLine s!"# ValueKind = {kind.name}:" := by cases kind <;> decide
  have caption : PlainLine "# NumValueSites:" := by decide
  simp only [kindLines, List.cons_append, List.nil_append, List.forall_mem_cons]
  refine ⟨title, plain_decimal _, caption, plain_decimal _, ?_⟩
  intro line member
  obtain ⟨site, -, inside⟩ := List.mem_flatMap.mp member
  exact plain_site site line inside

theorem plain_values (values : ValueProfile) : ∀ line ∈ valueLines values, PlainLine line := by
  have marker : PlainLine valueMarker := by decide
  have caption : PlainLine "# Num Value Kinds:" := by decide
  rw [valueLines]
  split
  · exact nofun
  · simp only [List.cons_append, List.nil_append, List.forall_mem_cons]
    refine ⟨marker, caption, plain_decimal _, ?_⟩
    intro line member
    obtain ⟨kind, -, inside⟩ := List.mem_flatMap.mp member
    exact plain_kind values kind line inside

theorem plain_block (record : FunctionRecord) :
    ∀ line ∈ (recordLines record).tail, PlainLine line := by
  have hash : PlainLine "# Func Hash:" := by decide
  have count : PlainLine "# Num Counters:" := by decide
  have caption : PlainLine "# Counter Values:" := by decide
  have blank : PlainLine "" := by decide
  have values : ∀ line ∈ (record.values.map valueLines).getD [], PlainLine line := by
    cases record.values with
    | none => exact nofun
    | some values => exact plain_values values
  simp only [recordLines, List.cons_append, List.nil_append, List.tail_cons, List.forall_mem_cons,
    List.forall_mem_append, List.forall_mem_map]
  exact ⟨hash, plain_decimal _, count, plain_decimal _, caption,
    ⟨fun counter _ => plain_decimal _, values⟩, blank, nofun⟩

theorem printed_record (record : FunctionRecord) :
    printed (recordLines record) =
      Utf8.bytes record.name ++ ([0x0A] ++ printed (recordLines record).tail) := by
  rw [← List.append_assoc]
  rfl

theorem record_plain_eq (record : FunctionRecord) (n : Nat) :
    ((printed (recordLines record)).take n).all isPlain =
      ((Utf8.bytes record.name).take n).all isPlain := by
  have behind : ((([0x0A] ++ printed (recordLines record).tail : Bytes)).take
      (n - (Utf8.bytes record.name).length)).all isPlain = true := by
    rw [List.take_append, List.all_append, plain_lines_all _ (plain_block record), Bool.and_true]
    rw [List.all_eq_true]
    intro b member
    cases List.mem_singleton.mp (List.mem_of_mem_take member)
    decide
  rw [printed_record, List.take_append, List.all_append, behind, Bool.and_true]

end Plain

theorem records_plain_iff (records : List FunctionRecord) (start : Nat) :
    ((printed (records.flatMap recordLines)).take (64 - start)).all isPlain = true ↔
      ∀ before record after, records = before ++ record :: after →
        ((Utf8.bytes record.name).take
          (64 - (start + (printed (before.flatMap recordLines)).length))).all isPlain = true := by
  induction records generalizing start with
  | nil =>
      refine ⟨fun _ before record after same => ?_, fun _ => by simp [printed]⟩
      simp at same
  | cons first records ih =>
      rw [List.flatMap_cons, printed_append, List.take_append, List.all_append, record_plain_eq,
        Bool.and_eq_true, Nat.sub_sub, ih]
      constructor
      · rintro ⟨own, others⟩ before record after same
        cases before with
        | nil =>
            cases same
            exact own
        | cons head before =>
            obtain ⟨rfl, shape⟩ := List.cons.inj same
            rw [List.flatMap_cons, printed_append, List.length_append, ← Nat.add_assoc]
            exact others before record after shape
      · intro every
        refine ⟨every [] first records rfl, fun before record after same => ?_⟩
        have later := every (first :: before) record after (congrArg (first :: ·) same)
        rwa [List.flatMap_cons, printed_append, List.length_append, ← Nat.add_assoc] at later

theorem written_bytes (profile : Profile) (text : String) (written : write profile = .ok text) :
    Utf8.bytes text = printed (linesOf profile) := by
  rw [write] at written
  split at written
  · cases written
  · cases written
    exact bytes_lines _

theorem is_text_iff (profile : Profile) :
    isText (printed (linesOf profile)) = true ↔ StartsPlain profile := by
  have header := plain_lines_all _ (plain_header profile.variant) 64
  rw [is_text_eq, linesOf, printed_append, List.take_append, List.all_append, header,
    Bool.true_and, records_plain_iff, StartsPlain]
  simp only [nameOffset, printed_append, List.length_append]

theorem starts_with_comment (profile : Profile) :
    ∃ rest, printed (linesOf profile) = 0x23 :: rest := by
  obtain ⟨-, -, ⟨ir, contextSensitive, entryFirst⟩, records, -, -⟩ := profile
  cases ir <;> cases contextSensitive <;> cases entryFirst <;> exact ⟨_, rfl⟩

end ExecCounts.TextProfile
