import ExecCounts.Proofs.Cut
import ExecCounts.Proofs.Outcome
import ExecCounts.Proofs.Reading
import ExecCounts.Proofs.Rejection
import ExecCounts.Proofs.Taken
import ExecCounts.Value.Blob

set_option autoImplicit false

namespace ExecCounts.Blob

open Read

variable {order : ByteOrder} {start : Nat} {rest : Bytes}

theorem site_counts_ok_iff (kind : ValueKind) (sites : List Site) (counts : Bytes) :
    siteCounts kind sites = .ok counts ↔
      (∀ site ∈ sites, site.length < 256) ∧ counts = sites.map (UInt8.ofNat ·.length) := by
  induction sites generalizing counts with
  | nil => simp [siteCounts, eq_comm]
  | cons site sites ih =>
      by_cases small : site.length < 256
      · rw [siteCounts, if_pos small, map_ok_iff]
        simp only [ih, List.forall_mem_cons, List.map_cons]
        constructor
        · rintro ⟨others, ⟨smallOthers, rfl⟩, rfl⟩
          exact ⟨⟨small, smallOthers⟩, rfl⟩
        · rintro ⟨⟨-, smallOthers⟩, rfl⟩
          exact ⟨_, ⟨smallOthers, rfl⟩, rfl⟩
      · simp [siteCounts, small]

def observationBytes (order : ByteOrder) (seen : Observation) : Bytes :=
  order.write 8 seen.value.toNat ++ order.write 8 seen.count.toNat

def kindBytes (order : ByteOrder) (kind : ValueKind) (sites : List Site) : Bytes :=
  order.write 4 kind.number ++ order.write 4 sites.length ++
    Bytes.padTo 8 (sites.map (UInt8.ofNat ·.length)) ++
      sites.flatten.flatMap (observationBytes order)

def partBytes (order : ByteOrder) (profile : ValueProfile) (kind : ValueKind) : Bytes :=
  if (profile.sites kind).isEmpty then [] else kindBytes order kind (profile.sites kind)

def usedKinds (profile : ValueProfile) (kinds : List ValueKind) : List ValueKind :=
  kinds.filter fun kind => !(profile.sites kind).isEmpty

def blobBytes (order : ByteOrder) (profile : ValueProfile) : Bytes :=
  order.write 4 (size profile) ++ (order.write 4 (usedKinds profile ValueKind.all).length ++
    ValueKind.all.flatMap (partBytes order profile))

structure Storable (profile : ValueProfile) : Prop where
  values : ∀ kind, ∀ site ∈ profile.sites kind, site.length < 256
  total : size profile < UInt32.size

theorem length_observations (order : ByteOrder) (site : Site) :
    (site.flatMap (observationBytes order)).length = 16 * site.length := by
  induction site with
  | nil => rfl
  | cons seen site ih =>
      simp only [List.flatMap_cons, List.length_append, ih, observationBytes, length_write,
        List.length_cons]
      omega

theorem length_kind_bytes (order : ByteOrder) (kind : ValueKind) (sites : List Site) :
    (kindBytes order kind sites).length = 8 + alignUp sites.length 8 + 16 * sites.flatten.length := by
  simp only [kindBytes, List.length_append, length_write, length_pad_to_eight, List.length_map,
    length_observations]

theorem length_part_bytes (order : ByteOrder) (profile : ValueProfile) (kind : ValueKind) :
    (partBytes order profile kind).length = kindSize (profile.sites kind) := by
  rw [partBytes, kindSize]
  split
  · rfl
  · exact length_kind_bytes _ _ _

theorem kind_size_aligned (sites : List Site) : kindSize sites % 8 = 0 := by
  rw [kindSize]
  split
  · rfl
  · rw [align_up_eight]
    omega

theorem site_count_le_kind_size (sites : List Site) : sites.length ≤ kindSize sites := by
  rw [kindSize]
  split
  · simp_all
  · rw [align_up_eight]
    omega

theorem size_eq (profile : ValueProfile) :
    size profile = 8 + kindSize (profile.sites .indirectCallTarget) +
      kindSize (profile.sites .memOpSize) := by
  simp only [size, headerSize, ValueKind.all, List.map_cons, List.map_nil, List.foldl_cons,
    List.foldl_nil]
  omega

theorem size_aligned (profile : ValueProfile) : size profile % 8 = 0 := by
  have first := kind_size_aligned (profile.sites .indirectCallTarget)
  have second := kind_size_aligned (profile.sites .memOpSize)
  rw [size_eq]
  omega

theorem site_count_le_size (profile : ValueProfile) (kind : ValueKind) :
    (profile.sites kind).length ≤ size profile := by
  have bound := site_count_le_kind_size (profile.sites kind)
  rw [size_eq]
  cases kind <;> omega

theorem length_blob_bytes (order : ByteOrder) (profile : ValueProfile) :
    (blobBytes order profile).length = size profile := by
  simp only [blobBytes, ValueKind.all, List.flatMap_cons, List.flatMap_nil, List.length_append,
    length_write, length_part_bytes, List.length_nil, size_eq]
  omega

theorem pad_from_eq (before piece : Bytes) :
    padFrom before.length (before ++ piece) = before ++ piece.padTo 8 := by
  rw [padFrom, Bytes.padTo, List.length_append, Nat.add_sub_cancel_left, Nat.add_sub_add_left,
    List.append_assoc]

theorem pad_behind (piece more : Bytes) (aligned : piece.length % 8 = 0) :
    (piece ++ more).padTo 8 = piece ++ more.padTo 8 := by
  have same : (piece.length + more.length) % 8 = more.length % 8 := by omega
  rw [pad_to_eq, pad_to_eq, List.length_append, same, List.append_assoc]

theorem site_counts_writes (kind : ValueKind) (sites : List Site) :
    Writes (∀ site ∈ sites, site.length < 256) (siteCounts kind sites) := by
  induction sites with
  | nil => exact (Writes.pure []).congr (iff_of_true trivial nofun)
  | cons site sites ih =>
      rw [siteCounts]
      by_cases small : site.length < 256
      · rw [if_pos small]
        exact (ih.map _).congr (by rw [List.forall_mem_cons, and_iff_right small])
      · rw [if_neg small]
        exact (Writes.refused _).congr (by rw [List.forall_mem_cons, iff_false_intro small, false_and])

section Appended

variable (profile : ValueProfile) (before : Bytes)

theorem encode_kind_writes (start : Nat) (buffer : Bytes) (kind : ValueKind) :
    Writes (∀ site ∈ profile.sites kind, site.length < 256)
      (encodeKind start profile buffer kind) := by
  by_cases none : (profile.sites kind).isEmpty
  · rw [encodeKind, if_pos none, List.isEmpty_iff.mp none]
    exact (Writes.pure buffer).congr (iff_of_true trivial nofun)
  · rw [encodeKind, if_neg none]
    exact (site_counts_writes kind _).returning _

theorem encode_kind_ok (written : Bytes) (kind : ValueKind) (buffer : Bytes)
    (aligned : written.length % 8 = 0)
    (encoded : encodeKind before.length profile (before ++ written) kind = .ok buffer) :
    buffer = before ++ (written ++ partBytes .little profile kind) := by
  by_cases none : (profile.sites kind).isEmpty
  · rw [encodeKind, if_pos none] at encoded
    cases encoded
    rw [partBytes, if_pos none, List.append_nil]
  · rw [encodeKind, if_neg none] at encoded
    simp only [bind_ok_iff, pure_ok_iff, site_counts_ok_iff] at encoded
    obtain ⟨counts, ⟨-, rfl⟩, rfl⟩ := encoded
    have lead : (written ++ (le32 kind.number ++ le32 (profile.sites kind).length)).length % 8 =
        0 := by
      simp only [List.length_append, length_le32]
      omega
    -- The padding is counted from the start of the blob, and what is written of it is a multiple of
    -- eight.
    have padded := pad_behind _ ((profile.sites kind).map (UInt8.ofNat ·.length)) lead
    simp only [List.append_assoc] at padded ⊢
    rw [pad_from_eq, padded, partBytes, if_neg none, kindBytes]
    simp only [List.append_assoc]
    rfl

theorem encode_kinds_ok (written : Bytes) (kinds : List ValueKind) (buffer : Bytes)
    (aligned : written.length % 8 = 0)
    (encoded : kinds.foldlM (encodeKind before.length profile) (before ++ written) = .ok buffer) :
    buffer = before ++ (written ++ kinds.flatMap (partBytes .little profile)) := by
  induction kinds generalizing written with
  | nil =>
      cases encoded
      rw [List.flatMap_nil, List.append_nil]
  | cons kind kinds ih =>
      rw [List.foldlM_cons, bind_ok_iff] at encoded
      obtain ⟨middle, own, others⟩ := encoded
      obtain rfl := encode_kind_ok profile before written kind middle aligned own
      have onward : (written ++ partBytes .little profile kind).length % 8 = 0 := by
        have part := kind_size_aligned (profile.sites kind)
        rw [List.length_append, length_part_bytes]
        omega
      rw [ih _ onward others, List.flatMap_cons, List.append_assoc written]

theorem encode_onto_writes : Writes (Storable profile) (encodeOnto before profile) := by
  rw [encodeOnto]
  refine (Writes.guarded _ (Writes.fold_m (fun kind _ buffer =>
    encode_kind_writes profile before.length buffer kind) _)).congr ?_
  rw [Nat.not_le]
  exact ⟨fun both => ⟨fun kind => both.2 kind (by cases kind <;> decide), both.1⟩,
    fun storable => ⟨storable.total, fun kind _ => storable.values kind⟩⟩

theorem encode_onto_storable (storable : Storable profile) :
    encodeOnto before profile = .ok (before ++ blobBytes .little profile) := by
  obtain ⟨buffer, encoded⟩ := (encode_onto_writes profile before).succeeds_iff.mpr storable
  rw [encoded]
  rw [encodeOnto, if_neg (Nat.not_le.mpr storable.total)] at encoded
  have header : (le32 (size profile) ++
      le32 (usedKinds profile ValueKind.all).length).length % 8 = 0 := by
    rw [List.length_append, length_le32, length_le32]
  have parts := encode_kinds_ok profile before _ ValueKind.all buffer header
  rw [← List.append_assoc] at parts
  rw [parts encoded, List.append_assoc]
  rfl

theorem encode_writes : Writes (Storable profile) (encode profile) :=
  encode_onto_writes profile []

theorem encode_ok (blob : Bytes) (encoded : encode profile = .ok blob) :
    Storable profile ∧ blob = blobBytes .little profile := by
  have storable : Storable profile := (encode_writes profile).succeeds_iff.mp ⟨blob, encoded⟩
  have whole : encode profile = _ := encode_onto_storable profile [] storable
  rw [encoded] at whole
  cases whole
  exact ⟨storable, rfl⟩

end Appended

theorem observation_yields (seen : Observation) :
    Yields observation order start (observationBytes order seen) rest seen := by
  apply bind_yields (u64_word_yields seen.value)
  exact bind_yields_last (u64_word_yields seen.count) (pure_yields _)

theorem site_yields (site : Site) (small : site.length < 256) :
    Yields (times (UInt8.ofNat site.length).toNat observation) order start
      (site.flatMap (observationBytes order)) rest site := by
  rw [UInt8.toNat_ofNat_of_lt' small]
  exact times_yields (observationBytes order) site fun seen _ _ _ => observation_yields seen

theorem sites_yields (sites : List Site) (small : ∀ site ∈ sites, site.length < 256) :
    Yields (Blob.sites (sites.map (UInt8.ofNat ·.length))) order start
      (sites.flatten.flatMap (observationBytes order)) rest sites := by
  induction sites generalizing start with
  | nil => exact pure_yields []
  | cons site sites ih =>
      rw [List.flatten_cons, List.flatMap_append, List.map_cons]
      apply bind_yields (site_yields site (small site List.mem_cons_self))
      have smallTail := fun other member => small other (List.mem_cons_of_mem _ member)
      exact bind_yields_last (ih smallTail) (pure_yields _)

def fill (profile : ValueProfile) : List ValueKind → ValueProfile → ValueProfile
  | [], found => found
  | kind :: kinds, found =>
      fill profile kinds
        (if (profile.sites kind).isEmpty then found
          else found.withSites (profile.sites kind) kind)

theorem fill_all (profile : ValueProfile) : fill profile ValueKind.all .empty = profile := by
  obtain ⟨calls, sizes⟩ := profile
  cases calls <;> cases sizes <;> rfl

theorem kind_yields {result : ValueProfile} {others : Bytes} (kind : ValueKind)
    (sites : List Site) (n : Nat) (seen : List ValueKind) (found : ValueProfile)
    (small : ∀ site ∈ sites, site.length < 256) (fits : sites.length < UInt32.size)
    (fresh : kind ∉ seen) (aligned : start % 8 = 0)
    (othersYield : Yields (kinds n (kind :: seen) (found.withSites sites kind)) order
      (start + (kindBytes order kind sites).length) others rest result) :
    Yields (kinds (n + 1) seen found) order start (kindBytes order kind sites ++ others) rest
      result := by
  have number : (UInt32.ofNat kind.number).toNat = kind.number :=
    UInt32.toNat_ofNat_of_lt' (by cases kind <;> decide)
  have known : (ValueKind.ofNumber? kind.number).filter (!seen.contains ·) = some kind := by
    rw [ValueKind.of_number_number]
    simp [fresh]
  have siteCount : (UInt32.ofNat sites.length).toNat = sites.length :=
    UInt32.toNat_ofNat_of_lt' fits
  have shape : kindBytes order kind sites ++ others = order.write 4 kind.number ++
      (order.write 4 sites.length ++ (sites.map (UInt8.ofNat ·.length) ++
        (Bytes.zeros (alignUp sites.length 8 - sites.length) ++
          (sites.flatten.flatMap (observationBytes order) ++ others)))) := by
    simp [kindBytes, Bytes.padTo]
  have moved : start + (kindBytes order kind sites).length = start + 4 + 4 + sites.length +
      (alignUp sites.length 8 - sites.length) +
        (sites.flatten.flatMap (observationBytes order)).length := by
    have above := align_up_eight sites.length
    rw [length_kind_bytes, length_observations]
    omega
  rw [shape, kinds]
  apply bind_yields (u32_yields kind.number)
  simp only [number, known]
  apply bind_yields (u32_yields sites.length)
  rw [siteCount]
  apply bind_yields (bytes_yields_of_length (List.length_map _))
  apply bind_yields (align_yields _)
  · apply bind_yields (sites_yields sites small)
    simpa only [moved, length_write, List.length_map, length_zeros] using othersYield
  · have above := align_up_eight sites.length
    simp only [length_zeros, padding, length_write, List.length_map]
    omega

theorem kinds_yields (profile : ValueProfile) (storable : Storable profile)
    (todo seen : List ValueKind) (found : ValueProfile) (aligned : start % 8 = 0)
    (distinct : todo.Nodup) (fresh : ∀ kind ∈ todo, kind ∉ seen) :
    Yields (kinds (usedKinds profile todo).length seen found) order start
      (todo.flatMap (partBytes order profile)) rest (fill profile todo found) := by
  induction todo generalizing seen start found with
  | nil => exact pure_yields found
  | cons kind todo ih =>
      obtain ⟨new, distinct⟩ := List.nodup_cons.mp distinct
      have freshTail := fun other member => fresh other (List.mem_cons_of_mem kind member)
      by_cases none : (profile.sites kind).isEmpty
      · simpa [usedKinds, partBytes, none, fill] using ih seen found aligned distinct freshTail
      · have siteCount := Nat.lt_of_le_of_lt (site_count_le_size profile kind) storable.total
        have partAligned : (kindBytes order kind (profile.sites kind)).length % 8 = 0 := by
          rw [length_kind_bytes, align_up_eight]
          omega
        have count : (usedKinds profile (kind :: todo)).length =
            (usedKinds profile todo).length + 1 := by
          simp [usedKinds, none]
        rw [count, List.flatMap_cons, partBytes, fill, if_neg none, if_neg none]
        apply kind_yields kind (profile.sites kind) _ seen found (storable.values kind) siteCount
          (fresh kind List.mem_cons_self) aligned
        apply ih _ _ (by omega) distinct
        intro other member again
        rcases List.mem_cons.mp again with rfl | again
        · exact new member
        · exact freshTail other member again

theorem check_sites_ok_iff (counts : ValueKind → Nat) (profile : ValueProfile) (kinds : List ValueKind) :
    checkSites counts profile kinds = .ok () ↔
      ∀ kind ∈ kinds, counts kind = (profile.sites kind).length := by
  induction kinds with
  | nil => exact ⟨fun _ => nofun, fun _ => rfl⟩
  | cons kind kinds ih =>
      rw [checkSites, List.forall_mem_cons, ← ih]
      by_cases agree : counts kind = (profile.sites kind).length
      · rw [if_pos agree]
        exact (and_iff_right agree).symm
      · rw [if_neg agree]
        exact ⟨nofun, fun both => absurd both.1 agree⟩

theorem decode_yields (order : ByteOrder) (profile : ValueProfile) (storable : Storable profile)
    (declared : Option (ValueKind → Nat))
    (true_counts : ∀ counts ∈ declared, ∀ kind, counts kind = (profile.sites kind).length) :
    Yields (decode declared) order 0 (blobBytes order profile) [] profile := by
  have few := List.length_filter_le (fun kind => !(profile.sites kind).isEmpty) ValueKind.all
  rw [← usedKinds] at few
  have used : (UInt32.ofNat (usedKinds profile ValueKind.all).length).toNat =
      (usedKinds profile ValueKind.all).length :=
    UInt32.toNat_ofNat_of_lt' (Nat.lt_of_le_of_lt few (by decide))
  have all : Yields (kinds (usedKinds profile ValueKind.all).length [] .empty) order 8
      (ValueKind.all.flatMap (partBytes order profile)) [] (fill profile ValueKind.all .empty) :=
    kinds_yields profile storable ValueKind.all [] .empty rfl (by decide)
      fun _ _ => List.not_mem_nil
  rw [fill_all] at all
  apply get_yields
  intro cursor _ _ _
  apply bind_yields (skip_yields (length_write order 4 _))
  apply bind_yields (u32_yields _)
  simp only [used, if_neg (Nat.not_lt.mpr few)]
  apply bind_yields_last (by simpa only [length_write] using all)
  apply bind_yields_nil position_yields
  apply bind_yields_nil at_end_yields
  cases declared with
  | none => exact pure_yields profile
  | some counts =>
      have checked := (check_sites_ok_iff counts profile ValueKind.all).mpr fun kind _ =>
        true_counts counts rfl kind
      simp only [checked]
      exact bind_yields_nil (of_except_yields ()) (pure_yields profile)

theorem decode_declared (counts : ValueKind → Nat) : decode (some counts) =
    decode none >>= fun profile => Read.ofExcept (checkSites counts profile ValueKind.all) >>= fun _ =>
      pure profile := by
  simp only [decode, bind_assoc]
  apply bind_congr
  intro current
  apply bind_congr
  intro _
  apply bind_congr
  intro kindCount
  by_cases many : ValueKind.all.length < kindCount.toNat
  · rw [if_pos many, if_pos many]
    rfl
  rw [if_neg many, if_neg many]
  simp only [bind_assoc]
  apply bind_congr
  intro profile
  apply bind_congr
  intro used
  apply bind_congr
  intro ended
  cases ended <;> rfl

theorem decode_declared_ok_iff (counts : ValueKind → Nat) (cursor : Cursor) (profile : ValueProfile) :
    cursor.read (decode (some counts)) = .ok profile ↔ cursor.read (decode none) = .ok profile ∧
      ∀ kind, (profile.sites kind).length = counts kind := by
  have every : (∀ kind, (profile.sites kind).length = counts kind) ↔
      checkSites counts profile ValueKind.all = .ok () := by
    rw [check_sites_ok_iff]
    exact ⟨fun each kind _ => (each kind).symm,
      fun each kind => (each kind (by cases kind <;> decide)).symm⟩
  rw [every, decode_declared, read_ok_iff, read_ok_iff]
  constructor
  · rintro ⟨after, ran⟩
    obtain ⟨found, middle, decoded, ran⟩ := (bind_ran_iff _ _ _).mp ran
    obtain ⟨⟨⟩, last, checkRan, ran⟩ := (bind_ran_iff _ _ _).mp ran
    obtain ⟨rfl, -⟩ := (pure_ran_iff _ _).mp ran
    exact ⟨⟨middle, decoded⟩, ((of_except_ran_iff _ _).mp checkRan).1⟩
  · rintro ⟨⟨middle, decoded⟩, checked⟩
    refine ⟨middle, (bind_ran_iff _ _ _).mpr ⟨profile, middle, decoded, ?_⟩⟩
    rw [checked]
    rfl

theorem frame_yields (order : ByteOrder) (profile : ValueProfile) (storable : Storable profile) :
    Yields frame order start (blobBytes order profile) rest
      (Cursor.ofBytes (blobBytes order profile) order) := by
  have total : (UInt32.ofNat (size profile)).toNat = size profile :=
    UInt32.toNat_ofNat_of_lt' storable.total
  have proper : ¬ (size profile < headerSize ∨ size profile % 8 ≠ 0) := by
    have aligned := size_aligned profile
    rw [headerSize, size_eq] at *
    omega
  have split : blobBytes order profile ++ rest = order.write 4 (size profile) ++
      (order.write 4 (usedKinds profile ValueKind.all).length ++
        ValueKind.all.flatMap (partBytes order profile) ++ rest) := by
    rw [blobBytes]
    simp only [List.append_assoc]
  apply bind_yields_nil position_yields
  apply look_ahead_yields split (u32_yields (size profile))
  · simp only [total, if_neg proper]
    rfl
  · apply get_yields
    intro cursor ordered _ _
    rw [ordered]
    exact bind_yields_last (bytes_yields_of_length (length_blob_bytes order profile))
      (pure_yields _)

theorem frame_ran {cursor after piece : Cursor} (ran : frame cursor = .ok piece after) :
    piece = Cursor.ofBytes ((cursor.data.drop cursor.offset).take
      (cursor.order.numberAt cursor.data cursor.offset 4)) cursor.order ∧
        cursor.Moved (cursor.order.numberAt cursor.data cursor.offset 4) after := by
  rw [frame] at ran
  obtain ⟨start, first, startRan, ran⟩ := (bind_ran_iff _ _ _).mp ran
  cases startRan
  obtain ⟨size, afterSize, sizeRan, ran⟩ := (bind_ran_iff _ _ _).mp ran
  obtain ⟨sizeNumber, moved⟩ := u32_ran sizeRan
  rw [← sizeNumber]
  by_cases improper : size.toNat < headerSize ∨ size.toNat % 8 ≠ 0
  · rw [if_pos improper] at ran
    cases ran
  rw [if_neg improper] at ran
  obtain ⟨⟨⟩, again, seekRan, ran⟩ := (bind_ran_iff _ _ _).mp ran
  obtain ⟨data, order, placed⟩ := seek_ran seekRan
  obtain ⟨current, middle, getRan, ran⟩ := (bind_ran_iff _ _ _).mp ran
  cases getRan
  obtain ⟨taken, last, bytesRan, ran⟩ := (bind_ran_iff _ _ _).mp ran
  obtain ⟨rfl, rfl⟩ := (pure_ran_iff _ _).mp ran
  obtain ⟨rfl, -, onward⟩ := bytes_ran bytesRan
  rw [data, order, placed, moved.data, moved.order]
  exact ⟨rfl, onward.data.trans (data.trans moved.data), onward.order.trans (order.trans moved.order),
    by rw [onward.offset, placed]⟩

theorem frame_survives {missing : Bytes} : Survives isTruncation missing frame := by
  unfold frame
  refine bind_survives position_survives fun start => ?_
  refine bind_survives (u32_survives truncated) fun size => ?_
  refine check_degrades fun _ => ?_
  refine bind_survives (seek_survives truncated start) fun _ => ?_
  refine bind_degrades get_degrades fun cursor short shortened => ?_
  rw [← shortened.order]
  exact bind_survives (bytes_survives truncated _) fun _ => pure_degrades rfl

end ExecCounts.Blob
