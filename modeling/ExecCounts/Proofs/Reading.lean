import ExecCounts.Proofs.Bytes
import ExecCounts.Proofs.Leb128
import ExecCounts.Proofs.Outcome
import ExecCounts.Proofs.Utf8
import ExecCounts.Cursor

set_option autoImplicit false

namespace ExecCounts.Read

variable {α β : Type} {order : ByteOrder} {start : Nat} {rest : Bytes}

/-- At position `start`, with `bytes` and then `rest` left to read, the result is `result` and the
cursor moves behind `bytes`. -/
def Yields (value : Read α) (order : ByteOrder) (start : Nat) (bytes rest : Bytes)
    (result : α) : Prop :=
  ∀ cursor : Cursor, cursor.order = order → cursor.offset = start → cursor.rest = bytes ++ rest →
    ∃ after : Cursor, value cursor = .ok result after ∧ after.data = cursor.data ∧
      after.order = order ∧ after.offset = start + bytes.length

theorem rest_after (cursor after : Cursor) (bytes : Bytes) (remaining : cursor.rest = bytes ++ rest)
    (data : after.data = cursor.data) (moved : after.offset = cursor.offset + bytes.length) :
    after.rest = rest := by
  rw [after.rest_eq, data, moved, ← List.drop_drop, ← cursor.rest_eq, remaining]
  simp

theorem pure_yields (result : α) : Yields (pure result) order start [] rest result := by
  intro cursor ordered placed _
  exact ⟨cursor, rfl, rfl, ordered, placed⟩

theorem bind_yields {first : Read α} {next : α → Read β} {bytes others : Bytes} {value : α}
    {result : β} (firstYields : Yields first order start bytes (others ++ rest) value)
    (nextYields : Yields (next value) order (start + bytes.length) others rest result) :
    Yields (first >>= next) order start (bytes ++ others) rest result := by
  intro cursor ordered placed remaining
  rw [List.append_assoc] at remaining
  obtain ⟨middle, ran, data, middleOrder, moved⟩ := firstYields cursor ordered placed remaining
  have left := rest_after cursor middle bytes remaining data (by rw [moved, placed])
  obtain ⟨after, ranOn, dataOn, afterOrder, movedOn⟩ := nextYields middle middleOrder moved left
  refine ⟨after, ?_, dataOn.trans data, afterOrder, ?_⟩
  · rw [run_bind_of_ok ran, ranOn]
  · rw [movedOn, List.length_append, Nat.add_assoc]

theorem bind_yields_nil {first : Read α} {next : α → Read β} {bytes : Bytes} {value : α}
    {result : β} (firstYields : Yields first order start [] (bytes ++ rest) value)
    (nextYields : Yields (next value) order start bytes rest result) :
    Yields (first >>= next) order start bytes rest result :=
  bind_yields firstYields nextYields

theorem bind_yields_last {first : Read α} {next : α → Read β} {bytes : Bytes} {value : α}
    {result : β} (firstYields : Yields first order start bytes rest value)
    (nextYields : Yields (next value) order (start + bytes.length) [] rest result) :
    Yields (first >>= next) order start bytes rest result := by
  have both := bind_yields (by simpa using firstYields) nextYields
  rwa [List.append_nil] at both

theorem run_get {next : Cursor → Read β} (cursor : Cursor) :
    (get >>= next) cursor = next cursor cursor :=
  rfl

theorem get_yields {next : Cursor → Read β} {bytes : Bytes} {result : β}
    (each : ∀ cursor : Cursor, cursor.order = order → cursor.offset = start →
      cursor.rest = bytes ++ rest → Yields (next cursor) order start bytes rest result) :
    Yields (get >>= next) order start bytes rest result := by
  intro cursor ordered placed remaining
  exact each cursor ordered placed remaining cursor ordered placed remaining

theorem map_yields {value : Read α} {bytes : Bytes} {found : α} (f : α → β)
    (yields : Yields value order start bytes rest found) :
    Yields (f <$> value) order start bytes rest (f found) := by
  intro cursor ordered placed remaining
  obtain ⟨after, ran, kept⟩ := yields cursor ordered placed remaining
  refine ⟨after, ?_, kept⟩
  change EStateM.map f value cursor = _
  simp only [EStateM.map, ran]

theorem position_yields : Yields position order start [] rest start := by
  intro cursor ordered placed _
  exact ⟨cursor, congrArg (EStateM.Result.ok · cursor) placed, rfl, ordered, placed⟩

theorem at_end_yields : Yields atEnd order start [] rest rest.isEmpty := by
  intro cursor ordered placed remaining
  refine ⟨cursor, ?_, rfl, ordered, placed⟩
  change EStateM.Result.ok cursor.isEmpty cursor = _
  rw [Cursor.isEmpty, remaining, List.nil_append]

theorem of_except_yields (result : α) :
    Yields (ofExcept (.ok result)) order start [] rest result :=
  pure_yields result

theorem of_except_ok_yields {computed : Except Failure α} {result : α} (ok : computed = .ok result) :
    Yields (ofExcept computed) order start [] rest result := by
  rw [ok]
  exact of_except_yields result

theorem bytes_yields (bytes : Bytes) :
    Yields (Read.bytes bytes.length) order start bytes rest bytes := by
  intro cursor ordered placed remaining
  have taken : cursor.rest.take bytes.length = bytes := by
    rw [remaining, List.take_left]
  have whole : (cursor.rest.take bytes.length).length = bytes.length := by rw [taken]
  refine ⟨cursor.advance bytes.length (by simp [remaining]), ?_, rfl, ordered, ?_⟩
  · rw [Read.bytes, dif_pos whole, taken]
  · change cursor.offset + bytes.length = _
    rw [placed]

theorem bytes_yields_of_length {n : Nat} {bytes : Bytes} (length : bytes.length = n) :
    Yields (Read.bytes n) order start bytes rest bytes :=
  length ▸ bytes_yields bytes

theorem skip_yields {n : Nat} {bytes : Bytes} (length : bytes.length = n) :
    Yields (skip n) order start bytes rest () :=
  bind_yields_last (bytes_yields_of_length length) (pure_yields ())

theorem align_yields {align : Nat} {bytes : Bytes} (length : bytes.length = padding start align) :
    Yields (Read.align align) order start bytes rest () :=
  bind_yields_nil position_yields (skip_yields length)

theorem align_in_place {cursor : Cursor} {width : Nat} (aligned : cursor.offset % width = 0) :
    Read.align width cursor = .ok () cursor := by
  have nothing : ([] : Bytes).length = padding cursor.offset width := by
    rw [padding, aligned, Nat.sub_zero, Nat.mod_self]
    rfl
  obtain ⟨after, ran, data, order, offset⟩ :=
    align_yields nothing cursor rfl rfl (List.nil_append _).symm
  rw [ran, Cursor.ext_position data order offset]

theorem padding_yields (order : ByteOrder) (rest : Bytes) (start length : Nat)
    (aligned : start % 8 = 0) :
    Yields (Read.align 8) order (start + length) (Bytes.zeros ((8 - length % 8) % 8)) rest () := by
  apply align_yields
  rw [length_zeros, padding]
  omega

theorem number_bytes_yields {width : Nat} {bytes : Bytes} (length : bytes.length = width) :
    Yields (number width) order start bytes rest (order.read bytes) := by
  apply get_yields
  intro cursor ordered _ _
  rw [ordered]
  exact bind_yields_last (bytes_yields_of_length length) (pure_yields _)

theorem number_yields (width n : Nat) :
    Yields (number width) order start (order.write width n) rest (n % Bytes.bound width) := by
  have read : Yields (number width) order start (order.write width n) rest
      (order.read (order.write width n)) := number_bytes_yields (length_write order width n)
  rwa [ByteOrder.read_write] at read

theorem u16_yields (n : Nat) : Yields u16 order start (order.write 2 n) rest (UInt16.ofNat n) := by
  have same : UInt16.ofNat (n % Bytes.bound 2) = UInt16.ofNat n := UInt16.ofNat_mod_size
  exact same ▸ map_yields UInt16.ofNat (number_yields 2 n)

theorem u32_yields (n : Nat) : Yields u32 order start (order.write 4 n) rest (UInt32.ofNat n) := by
  have same : UInt32.ofNat (n % Bytes.bound 4) = UInt32.ofNat n := UInt32.ofNat_mod_size
  exact same ▸ map_yields UInt32.ofNat (number_yields 4 n)

theorem u64_yields (n : Nat) : Yields u64 order start (order.write 8 n) rest (UInt64.ofNat n) := by
  have same : UInt64.ofNat (n % Bytes.bound 8) = UInt64.ofNat n := UInt64.ofNat_mod_size
  exact same ▸ map_yields UInt64.ofNat (number_yields 8 n)

theorem u64_word_yields (word : UInt64) :
    Yields u64 order start (order.write 8 word.toNat) rest word := by
  have read : Yields u64 order start (order.write 8 word.toNat) rest (UInt64.ofNat word.toNat) :=
    u64_yields word.toNat
  rwa [UInt64.ofNat_toNat] at read

theorem uint_any_yields (width : Width) (n : Nat) :
    Yields (uint width) order start (order.write width.size n) rest
      (UInt64.ofNat (n % Bytes.bound width.size)) :=
  map_yields UInt64.ofNat (number_yields width.size n)

theorem uint_yields (width : Width) (n : Nat) (fits : n ≤ width.limit) :
    Yields (uint width) order start (order.write width.size n) rest (UInt64.ofNat n) := by
  have same : n % Bytes.bound width.size = n := by
    apply Nat.mod_eq_of_lt
    cases width <;> simp_all [Width.limit, Width.size, Bytes.bound] <;> omega
  have read : Yields (uint width) order start (order.write width.size n) rest
      (UInt64.ofNat (n % Bytes.bound width.size)) := uint_any_yields width n
  rwa [same] at read

theorem uint_word_yields (width : Width) (word : UInt64) (fits : word.toNat ≤ width.limit) :
    Yields (uint width) order start (order.write width.size word.toNat) rest word := by
  have read : Yields (uint width) order start (order.write width.size word.toNat) rest
      (UInt64.ofNat word.toNat) := uint_yields width word.toNat fits
  rwa [UInt64.ofNat_toNat] at read

theorem uleb_decoded {cursor : Cursor} {value used : Nat}
    (decoded : Leb128.decode cursor.rest = .ok (value, used)) :
    uleb cursor = .ok (UInt64.ofNat value)
      (cursor.advance used (Leb128.used_le_length_of_decode decoded)) := by
  rw [uleb]
  split
  · rename_i found
    rw [decoded] at found
    cases found
    rfl
  · rename_i found
    rw [decoded] at found
    cases found
  · rename_i found
    rw [decoded] at found
    cases found

theorem uleb_truncated {cursor : Cursor} (decoded : Leb128.decode cursor.rest = .error .truncated) :
    uleb cursor = .error (Failure.atOffset cursor.offset { kind := .truncatedInput }) cursor := by
  rw [uleb]
  split
  · rename_i found
    rw [decoded] at found
    cases found
  · rename_i found
    rw [decoded] at found
    cases found
  · rfl

theorem uleb_decoded_yields (n : Nat) (bytes : Bytes)
    (decoded : Leb128.decode (bytes ++ rest) = .ok (n, bytes.length)) :
    Yields uleb order start bytes rest (UInt64.ofNat n) := by
  intro cursor ordered placed remaining
  rw [← remaining] at decoded
  exact ⟨_, uleb_decoded decoded, rfl, ordered, congrArg (· + bytes.length) placed⟩

theorem uleb_yields (n : Nat) (fits : n < UInt64.size) :
    Yields uleb order start (Leb128.encode n) rest (UInt64.ofNat n) :=
  uleb_decoded_yields n (Leb128.encode n) (Leb128.decode_encode n rest fits)

theorem uleb_word_yields (word : UInt64) :
    Yields uleb order start (Leb128.encode word.toNat) rest word := by
  have read : Yields uleb order start (Leb128.encode word.toNat) rest (UInt64.ofNat word.toNat) :=
    uleb_yields word.toNat word.toNat_lt_size
  rwa [UInt64.ofNat_toNat] at read

theorem uleb32_yields (n : Nat) (fits : n < UInt32.size) :
    Yields uleb32 order start (Leb128.encode n) rest (UInt32.ofNat n) := by
  have fits64 : n < UInt64.size := Nat.lt_trans fits (by decide)
  have value : (UInt64.ofNat n).toNat = n := UInt64.toNat_ofNat_of_lt' fits64
  apply bind_yields_nil position_yields
  apply bind_yields_last (uleb_yields n fits64)
  simp only [value, if_pos fits, UInt64.toUInt32_ofNat']
  exact pure_yields _

theorem text_yields (string : String) :
    Yields (text (Utf8.bytes string).length) order start (Utf8.bytes string) rest string := by
  apply bind_yields_nil position_yields
  apply bind_yields_last (bytes_yields _)
  simp only [Utf8.text_bytes]
  exact pure_yields string

theorem uleb_text_yields (string : String) (fits : (Utf8.bytes string).length < UInt64.size) :
    Yields ulebText order start
      (Leb128.encode (Utf8.bytes string).length ++ Utf8.bytes string) rest string := by
  apply bind_yields (uleb_yields _ fits)
  rw [UInt64.toNat_ofNat_of_lt' fits]
  exact text_yields string

theorem look_ahead_yields {first : Read α} {next : α → Read β} {again : Unit → Read β}
    {bytes ahead others : Bytes} {value : α} {result : β} (split : bytes ++ rest = ahead ++ others)
    (firstYields : Yields first order start ahead others value)
    (goesBack : next value = seek start >>= again)
    (againYields : Yields (again ()) order start bytes rest result) :
    Yields (first >>= next) order start bytes rest result := by
  intro cursor ordered placed remaining
  obtain ⟨middle, ran, data, middleOrder, -⟩ :=
    firstYields cursor ordered placed (remaining.trans split)
  have within : start ≤ middle.data.length := by
    rw [data, ← placed]
    exact cursor.offset_le
  have back : middle.move start within = cursor :=
    Cursor.ext_position data (middleOrder.trans ordered.symm) placed.symm
  have sought : seek start middle = .ok () cursor := by
    rw [seek, dif_pos within, back]
  obtain ⟨after, ranAgain, kept⟩ := againYields cursor ordered placed remaining
  refine ⟨after, ?_, kept⟩
  rw [run_bind_of_ok ran, goesBack, run_bind_of_ok sought, ranAgain]

theorem times_map_yields {action : Read β} (write : α → Bytes) (result : α → β) (values : List α)
    (each : ∀ value ∈ values, ∀ start rest,
      Yields action order start (write value) rest (result value)) :
    Yields (times values.length action) order start (values.flatMap write) rest
      (values.map result) := by
  induction values generalizing start with
  | nil => exact pure_yields []
  | cons value values ih =>
      rw [List.flatMap_cons, List.length_cons]
      apply bind_yields (each value List.mem_cons_self _ _)
      have eachOther := fun other member => each other (List.mem_cons_of_mem _ member)
      exact bind_yields_last (ih eachOther) (pure_yields (result value :: values.map result))

theorem times_yields {action : Read α} (write : α → Bytes) (values : List α)
    (each : ∀ value ∈ values, ∀ start rest, Yields action order start (write value) rest value) :
    Yields (times values.length action) order start (values.flatMap write) rest values := by
  have read : Yields (times values.length action) order start (values.flatMap write) rest
      (values.map id) := times_map_yields write id values each
  rwa [List.map_id] at read

def Takes (value : Read α) (order : ByteOrder) (n : Nat) : Prop :=
  ∀ bytes : Bytes, bytes.length = n → ∃ result, ∀ start rest, Yields value order start bytes rest result

theorem pure_takes (result : α) : Takes (pure result) order 0 := by
  intro bytes length
  rw [List.eq_nil_of_length_eq_zero length]
  exact ⟨result, fun start rest => pure_yields result⟩

theorem bind_takes {first : Read α} {next : α → Read β} {n m : Nat} (head : Takes first order n)
    (tail : ∀ value, Takes (next value) order m) : Takes (first >>= next) order (n + m) := by
  intro bytes length
  obtain ⟨value, firstYields⟩ := head (bytes.take n) (by rw [List.length_take]; omega)
  obtain ⟨result, nextYields⟩ := tail value (bytes.drop n) (by rw [List.length_drop]; omega)
  refine ⟨result, fun start rest => ?_⟩
  have both := bind_yields (firstYields start _) (nextYields _ rest)
  rwa [List.take_append_drop] at both

theorem bind_takes_last {first : Read α} {next : α → Read β} {n : Nat} (head : Takes first order n)
    (tail : ∀ value, Takes (next value) order 0) : Takes (first >>= next) order n :=
  bind_takes head tail

theorem map_takes {value : Read α} {n : Nat} (f : α → β) (takes : Takes value order n) :
    Takes (f <$> value) order n := by
  intro bytes length
  obtain ⟨found, yields⟩ := takes bytes length
  exact ⟨f found, fun start rest => map_yields f (yields start rest)⟩

theorem number_takes (width : Nat) : Takes (number width) order width :=
  fun bytes length => ⟨order.read bytes, fun _ _ => number_bytes_yields length⟩

theorem u32_takes : Takes u32 order 4 := map_takes UInt32.ofNat (number_takes 4)

theorem u64_takes : Takes u64 order 8 := map_takes UInt64.ofNat (number_takes 8)

theorem uint_takes (width : Width) : Takes (uint width) order width.size :=
  map_takes UInt64.ofNat (number_takes width.size)

def Refuses (value : Read α) (order : ByteOrder) (start : Nat) (left : Bytes)
    (fits : Failure → Prop) : Prop :=
  ∀ cursor : Cursor, cursor.order = order → cursor.offset = start → cursor.rest = left →
    ∃ failure after, value cursor = .error failure after ∧ fits failure

theorem bind_refuses {first : Read α} {next : α → Read β} {left : Bytes} {fits : Failure → Prop}
    (refuses : Refuses first order start left fits) :
    Refuses (first >>= next) order start left fits := by
  intro cursor ordered placed remaining
  obtain ⟨failure, after, ran, fit⟩ := refuses cursor ordered placed remaining
  refine ⟨failure, after, ?_, fit⟩
  exact (run_bind_error_iff _ _ _ _ _).mpr (.inl ran)

theorem bind_refuses_after {first : Read α} {next : α → Read β} {bytes left : Bytes} {value : α}
    {fits : Failure → Prop} (firstYields : Yields first order start bytes left value)
    (nextRefuses : Refuses (next value) order (start + bytes.length) left fits) :
    Refuses (first >>= next) order start (bytes ++ left) fits := by
  intro cursor ordered placed remaining
  obtain ⟨middle, ran, data, middleOrder, moved⟩ := firstYields cursor ordered placed remaining
  have behind := rest_after cursor middle bytes remaining data (by rw [moved, placed])
  obtain ⟨failure, after, ranOn, fit⟩ := nextRefuses middle middleOrder moved behind
  refine ⟨failure, after, ?_, fit⟩
  rw [run_bind_of_ok ran, ranOn]

theorem bind_refuses_nil {first : Read α} {next : α → Read β} {left : Bytes} {value : α}
    {fits : Failure → Prop} (firstYields : Yields first order start [] left value)
    (nextRefuses : Refuses (next value) order start left fits) :
    Refuses (first >>= next) order start left fits :=
  bind_refuses_after firstYields nextRefuses

theorem get_refuses {next : Cursor → Read β} {left : Bytes} {fits : Failure → Prop}
    (each : ∀ cursor : Cursor, cursor.order = order → cursor.offset = start →
      cursor.rest = left → Refuses (next cursor) order start left fits) :
    Refuses (get >>= next) order start left fits := by
  intro cursor ordered placed remaining
  exact each cursor ordered placed remaining cursor ordered placed remaining

theorem of_except_refuses {computed : Except Failure α} {left : Bytes} {fits : Failure → Prop}
    (failed : ∃ failure, computed = .error failure ∧ fits failure) :
    Refuses (ofExcept computed) order start left fits := by
  intro cursor _ _ _
  obtain ⟨failure, rfl, fit⟩ := failed
  exact ⟨failure, cursor, rfl, fit⟩

theorem read_of_refuses {value : Read α} {bytes : Bytes} {fits : Failure → Prop}
    (refuses : Refuses value order 0 bytes fits) :
    ∃ failure, (Cursor.ofBytes bytes order).read value = .error failure ∧ fits failure := by
  obtain ⟨failure, after, ran, fit⟩ := refuses (Cursor.ofBytes bytes order) rfl rfl rfl
  exact ⟨failure, by simp only [Cursor.read, ran], fit⟩

theorem read_of_yields {value : Read α} {bytes : Bytes} {result : α}
    (yields : Yields value order 0 bytes [] result) :
    (Cursor.ofBytes bytes order).read value = .ok result := by
  obtain ⟨after, ran, -⟩ := yields (Cursor.ofBytes bytes order) rfl rfl (List.append_nil _).symm
  simp only [Cursor.read, ran]

end ExecCounts.Read
