import ExecCounts.Proofs.Value.Blob

set_option autoImplicit false

namespace ExecCounts.Blob

/-- The writer pads to multiples of eight that it counts from the start of the blob, the reader to
those that it counts within the blob, and so the blob reads back wherever it stands. -/
theorem blob_round_trip (profile : ValueProfile) (before after : Bytes)
    (values : ∀ kind, ∀ site ∈ profile.sites kind, site.length ≤ 255)
    (total : size profile < 2 ^ 32) :
    ∃ blob : Bytes, encodeOnto before profile = .ok (before ++ blob) ∧
      blob.length = size profile ∧ size profile % 8 = 0 ∧
      (∀ cursor : Cursor, cursor.data = before ++ blob ++ after → cursor.order = .little →
        cursor.offset = before.length → ∃ next : Cursor,
          frame cursor = .ok (Cursor.little blob) next ∧ next.data = cursor.data ∧
            next.order = .little ∧ next.offset = (before ++ blob).length) ∧
      (Cursor.little blob).read (decode none) = .ok profile ∧
      ∀ counts : ValueKind → UInt16,
        (∀ kind, (counts kind).toNat = (profile.sites kind).length) →
          (Cursor.little blob).read (decode (some fun kind => (counts kind).toNat)) =
            .ok profile := by
  have storable : Storable profile :=
    ⟨fun kind site listed => Nat.lt_succ_of_le (values kind site listed), total⟩
  refine ⟨blobBytes .little profile, encode_onto_storable profile before storable,
    length_blob_bytes .little profile, size_aligned profile, ?_, ?_, ?_⟩
  · intro cursor data order offset
    have remaining : cursor.rest = blobBytes .little profile ++ after := by
      rw [cursor.rest_eq, data, offset, List.append_assoc, List.drop_left]
    obtain ⟨next, ran, kept, nextOrder, moved⟩ :=
      frame_yields .little profile storable cursor order offset remaining
    exact ⟨next, ran, kept, nextOrder, by rw [moved, List.length_append]⟩
  · exact Read.read_of_yields (decode_yields .little profile storable none nofun)
  · intro counts true_counts
    refine Read.read_of_yields (decode_yields .little profile storable _ ?_)
    rintro _ ⟨⟩ kind
    exact true_counts kind

def mixedSites : ValueProfile := ⟨[[⟨0xdead, 3⟩, ⟨0xbeef, 1⟩], []], [[⟨64, 10⟩]]⟩

/-- Behind a single byte, where multiples of eight in the buffer are none in the blob. -/
theorem blob_round_trip_unaligned :
    (∀ kind, ∀ site ∈ mixedSites.sites kind, site.length ≤ 255) ∧ size mixedSites = 88 ∧
    ∃ blob : Bytes, encodeOnto [7] mixedSites = .ok (7 :: blob) ∧ blob.length = 88 ∧
      (∃ cursor next : Cursor, cursor.data = 7 :: (blob ++ [9]) ∧ cursor.offset = 1 ∧
        frame cursor = .ok (Cursor.little blob) next ∧ next.offset = 89) ∧
      (Cursor.little blob).read (decode (some fun kind => (mixedSites.sites kind).length)) =
        .ok mixedSites := by
  have values : ∀ kind, ∀ site ∈ mixedSites.sites kind, site.length ≤ 255 := by
    intro kind
    cases kind <;> decide
  have total : size mixedSites = 88 := by decide
  obtain ⟨blob, onto, length, -, framed, -, declared⟩ :=
    blob_round_trip mixedSites [7] [9] values (by rw [total]; decide)
  rw [total] at length
  have within : 1 ≤ ([7] ++ blob ++ [9]).length := by simp
  obtain ⟨next, ran, -, -, moved⟩ :=
    framed ((Cursor.little ([7] ++ blob ++ [9])).move 1 within) rfl rfl rfl
  have counts := declared (fun kind => UInt16.ofNat (mixedSites.sites kind).length) fun kind => by
    cases kind <;> rfl
  refine ⟨values, total, blob, onto, length, ⟨_, next, rfl, rfl, ran, ?_⟩, ?_⟩
  · rw [moved, List.length_append, length]
    rfl
  · have same : (fun kind => (UInt16.ofNat (mixedSites.sites kind).length).toNat) =
        fun kind => (mixedSites.sites kind).length := by
      funext kind
      cases kind <;> rfl
    rwa [same] at counts

end ExecCounts.Blob
