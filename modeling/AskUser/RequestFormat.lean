import AskUser.Translator

/-!
# The request format

`requestToData` writes three fields one after the other, each `length separator bytes separator`.
The decoder reads a field back whatever stands before it, as long as that is whitespace, so the
trailing separator of one field is skipped in front of the next (`readMembers_fields`, by
induction on the fields). The format is therefore a prefix code (`requestFormat`).

On arbitrary bytes the decoder never fails by itself, but it builds a buffer from every length it
extracts. `Oversized` describes the data in which some length is larger than a container can be;
`dataToRequest_error_iff` shows that these, and blank data over an unlucky indeterminate size, are
exactly the data on which an exception leaves the decoder.
-/

namespace AskUser
open ByteText

namespace Translator
open AskUser.Translator.Agent AskUser.Translator.Plugin

/-! ### Writing and reading back -/

/-- One string of a request as it stands in the data. -/
def field (s : Bytes) : Bytes := numeral s.length ++ byte ' ' :: (s ++ [byte ' '])

theorem requestToData_eq (client user privilege : Bytes) :
    requestToData client user privilege = [client, user, privilege].flatMap field := by
  simp [requestToData, field]

@[simp] theorem fill_self (s : Bytes) : fill s.length s = s := by simp [fill]

theorem dropWhile_isSpace_numeral {ws : Bytes} (hws : ∀ b ∈ ws, isSpace b = true) (n : ℕ)
    (s : Bytes) : (ws ++ (numeral n ++ s)).dropWhile isSpace = numeral n ++ s := by
  rw [List.dropWhile_append_of_pos hws]
  obtain ⟨b, t, hbt⟩ := List.exists_cons_of_ne_nil (numeral_ne_nil n)
  rw [hbt, List.cons_append]
  exact dropWhile_isSpace_of_digit (isDigit_of_mem_numeral (by rw [hbt]; simp))

theorem noDigitNext_space (s : Bytes) : NoDigitNext (byte ' ' :: s) := by
  intro b hb
  simp only [List.head?_cons, Option.mem_def, Option.some.injEq] at hb
  subst hb
  decide

/-- One round of the loop on a field: the string comes back, and the stream stays good, at the
separator after the string. -/
theorem readMembers_field (L : Limits) (k : ℕ) {ws s : Bytes} (r : Bytes) (old : ℕ)
    (hws : ∀ b ∈ ws, isSpace b = true) (hs : s.length ≤ L.maxSize) :
    readMembers L (k + 1) ⟨ws ++ (field s ++ r), false, false⟩ old =
      (readMembers L k ⟨byte ' ' :: r, false, false⟩ s.length).map (s :: ·) := by
  have htext : field s ++ r = numeral s.length ++ byte ' ' :: (s ++ byte ' ' :: r) := by
    simp [field]
  have hscan : scan ((ws ++ (field s ++ r)).dropWhile isSpace) =
      ⟨false, numeral s.length, byte ' ' :: (s ++ byte ' ' :: r)⟩ := by
    rw [htext, dropWhile_isSpace_numeral hws, scan_numeral_append _ (noDigitNext_space _)]
  have hle : s.length ≤ L.sizeMax := hs.trans L.maxSize_le
  have hval : IStream.unsignedValue L.sizeMax
      ⟨false, numeral s.length, byte ' ' :: (s ++ byte ' ' :: r)⟩ = s.length := by
    rw [IStream.unsignedValue_of_le] <;> simp [value_numeral, hle]
  rw [readMembers, IStream.extract_numeral hscan (numeral_ne_nil _)]
  simp only [hval, List.isEmpty_cons, value_numeral, Nat.not_lt.mpr hle, decide_false,
    Nat.not_lt.mpr hs, if_false]
  rw [IStream.read_le (n := 1) (by simp)]
  simp only [List.drop_succ_cons, List.drop_zero]
  rw [IStream.read_le (by simp)]
  simp only [List.take_left', List.drop_left', fill_self]
  cases readMembers L k ⟨byte ' ' :: r, false, false⟩ s.length <;> rfl

/-- The loop reads a sequence of fields back, by induction on the fields. -/
theorem readMembers_fields (L : Limits) (fs : List Bytes) (rest : Bytes)
    (hfs : ∀ s ∈ fs, s.length ≤ L.maxSize) (ws : Bytes) (hws : ∀ b ∈ ws, isSpace b = true)
    (old : ℕ) :
    readMembers L fs.length ⟨ws ++ (fs.flatMap field ++ rest), false, false⟩ old = .ok fs := by
  induction fs generalizing ws old with
  | nil => rfl
  | cons s fs ih =>
    have hspace : ∀ b ∈ [byte ' '], isSpace b = true := List.forall_mem_singleton.2 rfl
    have ih' := ih (fun t ht => hfs t (by simp [ht])) [byte ' '] hspace s.length
    rw [List.flatMap_cons, List.append_assoc, List.length_cons,
      readMembers_field L _ _ _ hws (hfs s (by simp))]
    rw [List.singleton_append] at ih'
    rw [ih']
    rfl

/-- A request is decoded to the strings it was made from, whatever follows it. -/
theorem dataToRequest_requestToData (L : Limits) (garbage : ℕ)
    (client user privilege rest : Bytes) (hc : client.length ≤ L.maxSize)
    (hu : user.length ≤ L.maxSize) (hp : privilege.length ≤ L.maxSize) :
    dataToRequest L garbage (requestToData client user privilege ++ rest) =
      .ok ⟨client, user, privilege⟩ := by
  have h : readMembers L 3 ⟨[client, user, privilege].flatMap field ++ rest, false, false⟩ garbage =
      .ok [client, user, privilege] :=
    readMembers_fields L [client, user, privilege] rest (by simp [hc, hu, hp]) [] (by simp) garbage
  rw [dataToRequest, requestToData_eq, h]
  rfl

/-- No limit of a platform is needed to tell requests apart: take one that is large enough. -/
theorem requestToData_prefix_free {c u p c' u' p' rest : Bytes}
    (h : requestToData c u p ++ rest = requestToData c' u' p') :
    (c, u, p) = (c', u', p') ∧ rest = [] := by
  let L : Limits := ⟨c.length + u.length + p.length + c'.length + u'.length + p'.length,
    c.length + u.length + p.length + c'.length + u'.length + p'.length, le_rfl⟩
  have h₁ := dataToRequest_requestToData L 0 c u p rest
    (by simp only [L]; omega) (by simp only [L]; omega) (by simp only [L]; omega)
  have h₂ := dataToRequest_requestToData L 0 c' u' p' []
    (by simp only [L]; omega) (by simp only [L]; omega) (by simp only [L]; omega)
  rw [List.append_nil, ← h, h₁] at h₂
  simp only [Except.ok.injEq, RequestData.mk.injEq] at h₂
  obtain ⟨rfl, rfl, rfl⟩ := h₂
  exact ⟨rfl, List.append_right_eq_self.mp h⟩

/-- **Round trip and prefix property of the request format.** A string is no longer than a
container can be, so these are all strings; the decoder's indeterminate size is never used. -/
theorem requestFormat :
    (∀ (L : Limits) (garbage : ℕ) (client user privilege rest : Bytes),
      client.length ≤ L.maxSize → user.length ≤ L.maxSize → privilege.length ≤ L.maxSize →
      dataToRequest L garbage (requestToData client user privilege ++ rest) =
        .ok ⟨client, user, privilege⟩) ∧
    ∀ c u p c' u' p' rest : Bytes, requestToData c u p ++ rest = requestToData c' u' p' →
      (c, u, p) = (c', u', p') ∧ rest = [] :=
  ⟨fun L garbage c u p rest hc hu hp => dataToRequest_requestToData L garbage c u p rest hc hu hp,
    fun _ _ _ _ _ _ _ => requestToData_prefix_free⟩

/-- The format at strings that a careless decoder would trip over: empty, digits, whitespace. -/
theorem requestFormat_digits_and_blanks :
    dataToRequest .lp64 7 (requestToData [] [byte '1', byte '2'] [byte ' ', 10, 0] ++ [byte '9']) =
      .ok ⟨[], [byte '1', byte '2'], [byte ' ', 10, 0]⟩ :=
  requestFormat.1 .lp64 7 [] [byte '1', byte '2'] [byte ' ', 10, 0] [byte '9'] (by decide)
    (by decide) (by decide)

/-! ### Lengths that no container can have -/

/-- Blank data: nothing but whitespace. -/
def Blank (data : Bytes) : Prop := ∀ b ∈ data, isSpace b = true

/-- One block of a request: whitespace, a numeral in the range of `size_t`, a separator byte, and
as many bytes as the numeral says. -/
def Block (L : Limits) (data payload rest : Bytes) : Prop :=
  ∃ ws t sep, data = ws ++ t ∧ Blank ws ∧ (scan t).digits ≠ [] ∧
    value (scan t).digits ≤ L.sizeMax ∧ IStream.unsignedValue L.sizeMax (scan t) = payload.length ∧
    (scan t).rest = sep :: (payload ++ rest)

/-- The data starts with whitespace and a numeral that is read as a length above the limit of a
container: a large one, one beyond the range of `size_t`, or one with a minus sign. -/
def OversizedNumeral (L : Limits) (data : Bytes) : Prop :=
  ∃ ws t, data = ws ++ t ∧ Blank ws ∧ (scan t).digits ≠ [] ∧
    L.maxSize < IStream.unsignedValue L.sizeMax (scan t)

/-- An oversized numeral stands where one of the next `k` lengths is expected. -/
def Oversized (L : Limits) : ℕ → Bytes → Prop
  | 0, _ => False
  | k + 1, data => OversizedNumeral L data ∨
      ∃ payload rest, Block L data payload rest ∧ payload.length ≤ L.maxSize ∧ Oversized L k rest

theorem blank_iff (data : Bytes) : Blank data ↔ data.dropWhile isSpace = [] := by
  simp [Blank, List.dropWhile_eq_nil_iff]

theorem blank_takeWhile (data : Bytes) : Blank (data.takeWhile isSpace) :=
  fun _ h => List.mem_takeWhile_imp h

/-- A text in which a scan finds digits does not start with whitespace. -/
theorem dropWhile_isSpace_of_scan {t : Bytes} (h : (scan t).digits ≠ []) :
    t.dropWhile isSpace = t := by
  cases t with
  | nil => rfl
  | cons b t =>
    have hb : isSpace b = false := by
      by_contra hb
      have hsp : isSpace b = true := by simpa using hb
      have hminus : b ≠ byte '-' := by rintro rfl; exact absurd hsp (by decide)
      have hplus : b ≠ byte '+' := by rintro rfl; exact absurd hsp (by decide)
      have hdig : isDigit b = false := by
        by_contra hd
        have hd' : isDigit b = true := by simpa using hd
        have := dropWhile_isSpace_of_digit (s := []) hd'
        simp [hsp] at this
      simp [scan, splitSign, hminus, hplus, hdig] at h
    simp [hb]

theorem dropWhile_blank_append {ws t : Bytes} (hws : Blank ws) (h : (scan t).digits ≠ []) :
    (ws ++ t).dropWhile isSpace = t := by
  rw [List.dropWhile_append_of_pos hws, dropWhile_isSpace_of_scan h]

theorem oversizedNumeral_iff (L : Limits) (data : Bytes) :
    OversizedNumeral L data ↔ (scan (data.dropWhile isSpace)).digits ≠ [] ∧
      L.maxSize < IStream.unsignedValue L.sizeMax (scan (data.dropWhile isSpace)) := by
  constructor
  · rintro ⟨ws, t, rfl, hws, hd, hlt⟩
    rw [dropWhile_blank_append hws hd]
    exact ⟨hd, hlt⟩
  · rintro ⟨hd, hlt⟩
    exact ⟨_, _, List.takeWhile_append_dropWhile.symm, blank_takeWhile data, hd, hlt⟩

theorem block_iff (L : Limits) (data payload rest : Bytes) :
    Block L data payload rest ↔ ∃ sep, (scan (data.dropWhile isSpace)).digits ≠ [] ∧
      value (scan (data.dropWhile isSpace)).digits ≤ L.sizeMax ∧
      IStream.unsignedValue L.sizeMax (scan (data.dropWhile isSpace)) = payload.length ∧
      (scan (data.dropWhile isSpace)).rest = sep :: (payload ++ rest) := by
  constructor
  · rintro ⟨ws, t, sep, rfl, hws, hd, hle, hlen, hrest⟩
    rw [dropWhile_blank_append hws hd]
    exact ⟨sep, hd, hle, hlen, hrest⟩
  · rintro ⟨sep, hd, hle, hlen, hrest⟩
    exact ⟨_, _, sep, List.takeWhile_append_dropWhile.symm, blank_takeWhile data, hd, hle, hlen,
      hrest⟩

/-- One round of the loop. -/
theorem readMembers_succ (L : Limits) (k : ℕ) (stream : IStream) (old : ℕ) :
    readMembers L (k + 1) stream old =
      let size := (stream.extract L.sizeMax old).2
      let payload := ((stream.extract L.sizeMax old).1.read 1).2.read size
      if L.maxSize < size then .error .length_error
      else (readMembers L k payload.2 size).map (fill size payload.1 :: ·) := by
  simp only [readMembers]
  split_ifs
  · rfl
  · cases readMembers L k _ _ <;> rfl

/-- After a failure the size keeps its last value, so the loop goes on with buffers of that size. -/
theorem readMembers_of_not_good (L : Limits) (k : ℕ) (stream : IStream) {old : ℕ}
    (hs : stream.good = false) (hold : old ≤ L.maxSize) :
    ∃ members, readMembers L k stream old = .ok members := by
  induction k generalizing stream with
  | zero => exact ⟨[], rfl⟩
  | succ k ih =>
    rw [readMembers_succ, IStream.extract_of_not_good hs]
    simp only [Nat.not_lt.mpr hold, if_false]
    rw [IStream.read_of_not_good (n := 1) (by simp), IStream.read_of_not_good (by simp)]
    obtain ⟨members, h⟩ := ih { stream with failbit := true } (by simp)
    exact ⟨_, by rw [h]; rfl⟩

/-- A round that leaves the stream in a failed state, with a size for which there can be buffers, is
the last one that matters. -/
theorem readMembers_of_failed_round {L : Limits} (k : ℕ) {stream : IStream} {old size : ℕ}
    (hsize : (stream.extract L.sizeMax old).2 = size) (hle : size ≤ L.maxSize)
    (hs : (((stream.extract L.sizeMax old).1.read 1).2.read size).2.good = false) :
    ∃ members, readMembers L (k + 1) stream old = .ok members := by
  obtain ⟨members, h⟩ := readMembers_of_not_good L k _ hs hle
  rw [readMembers_succ]
  simp only [hsize, Nat.not_lt.mpr hle, if_false, h]
  exact ⟨_, rfl⟩

/-- Blank data leave the size as it was. -/
theorem readMembers_blank {L : Limits} {data : Bytes} (k : ℕ) {old : ℕ}
    (hblank : data.dropWhile isSpace = []) (hold : old ≤ L.maxSize) :
    ∃ members, readMembers L (k + 1) ⟨data, false, false⟩ old = .ok members := by
  refine readMembers_of_failed_round k (by rw [IStream.extract_blank hblank]) hold ?_
  rw [IStream.extract_blank hblank, IStream.read_of_not_good rfl, IStream.read_of_not_good rfl]
  rfl

/-- Where there is no numeral the size becomes zero. -/
theorem readMembers_no_digits {L : Limits} {data : Bytes} (k old : ℕ)
    (hblank : data.dropWhile isSpace ≠ []) (hd : (scan (data.dropWhile isSpace)).digits = []) :
    ∃ members, readMembers L (k + 1) ⟨data, false, false⟩ old = .ok members := by
  obtain ⟨hbad, hzero⟩ := IStream.extract_no_digits L.sizeMax old hblank hd
  refine readMembers_of_failed_round k hzero (Nat.zero_le _) ?_
  rw [IStream.read_of_not_good hbad, IStream.read_of_not_good (IStream.good_failed ..)]
  exact IStream.good_failed ..

/-- A block is one round of the loop, after which the stream is good. -/
theorem readMembers_block {L : Limits} {data payload rest : Bytes} (k old : ℕ)
    (h : Block L data payload rest) (hlen : payload.length ≤ L.maxSize) :
    readMembers L (k + 1) ⟨data, false, false⟩ old =
      (readMembers L k ⟨rest, false, false⟩ payload.length).map (payload :: ·) := by
  obtain ⟨sep, hd, hle, hval, hrest⟩ := (block_iff ..).1 h
  rw [readMembers_succ, IStream.extract_numeral rfl hd]
  simp only [hval, hrest, List.isEmpty_cons, Nat.not_lt.mpr hle, decide_false,
    Nat.not_lt.mpr hlen, if_false]
  rw [IStream.read_le (n := 1) (by simp)]
  simp only [List.drop_succ_cons, List.drop_zero]
  rw [IStream.read_le (by simp)]
  simp only [List.take_left', List.drop_left', fill_self]

/-- A numeral that fits a container but is not the head of a block makes the stream fail, with
the numeral left in the size: the loop ends without an exception. -/
theorem readMembers_not_block {L : Limits} {data : Bytes} (k old : ℕ)
    (hd : (scan (data.dropWhile isSpace)).digits ≠ [])
    (hlen : IStream.unsignedValue L.sizeMax (scan (data.dropWhile isSpace)) ≤ L.maxSize)
    (hb : ∀ payload rest, ¬ Block L data payload rest) :
    ∃ members, readMembers L (k + 1) ⟨data, false, false⟩ old = .ok members := by
  set n := scan (data.dropWhile isSpace) with hn
  set v := IStream.unsignedValue L.sizeMax n with hv
  have hsize : ((⟨data, false, false⟩ : IStream).extract L.sizeMax old).2 = v := by
    rw [IStream.extract_numeral hn.symm hd]
  by_cases hgood : n.rest ≠ [] ∧ value n.digits ≤ L.sizeMax
  · -- the stream is good after the numeral, so the bytes that follow are too few
    obtain ⟨hne, hle⟩ := hgood
    obtain ⟨sep, r, hr⟩ := List.exists_cons_of_ne_nil hne
    have hshort : r.length < v := by
      by_contra hlong
      refine hb (r.take v) (r.drop v) ((block_iff ..).2 ⟨sep, hd, hle, ?_, ?_⟩)
      · rw [← hn, ← hv, List.length_take]
        omega
      · rw [← hn, hr, List.take_append_drop]
    refine readMembers_of_failed_round k hsize hlen ?_
    rw [IStream.extract_numeral hn.symm hd]
    simp only [hr, List.isEmpty_cons, Nat.not_lt.mpr hle, decide_false]
    rw [IStream.read_le (n := 1) (by simp)]
    simp only [List.drop_succ_cons, List.drop_zero]
    rw [IStream.read_short hshort]
    rfl
  · have hbad : (⟨n.rest, n.rest.isEmpty, decide (L.sizeMax < value n.digits)⟩ : IStream).good =
        false := by
      by_cases hne : n.rest = []
      · simp [IStream.good, hne]
      · have : L.sizeMax < value n.digits := by
          by_contra hle
          exact hgood ⟨hne, by omega⟩
        simp [IStream.good, this]
    refine readMembers_of_failed_round k hsize hlen ?_
    rw [IStream.extract_numeral hn.symm hd, IStream.read_of_not_good hbad,
      IStream.read_of_not_good (IStream.good_failed ..)]
    exact IStream.good_failed ..

/-- The block at the head of some data is determined by the data. -/
theorem Block.unique {L : Limits} {data payload rest payload' rest' : Bytes}
    (h : Block L data payload rest) (h' : Block L data payload' rest') :
    payload = payload' ∧ rest = rest' := by
  obtain ⟨sep, -, -, hlen, hrest⟩ := (block_iff ..).1 h
  obtain ⟨sep', -, -, hlen', hrest'⟩ := (block_iff ..).1 h'
  rw [hrest, List.cons.injEq] at hrest'
  exact List.append_inj hrest'.2 (hlen.symm.trans hlen')

theorem not_oversized_of_no_digits {L : Limits} {k : ℕ} {data : Bytes}
    (h : (scan (data.dropWhile isSpace)).digits = []) : ¬ Oversized L k data := by
  cases k with
  | zero => exact id
  | succ k =>
    rintro (hn | ⟨payload, rest, hb, -⟩)
    · exact ((oversizedNumeral_iff L data).1 hn).1 h
    · obtain ⟨-, hd, -⟩ := (block_iff ..).1 hb
      exact hd h

/-- Behind a block the next length is the one that matters. -/
theorem oversized_succ_of_block {L : Limits} {k : ℕ} {data payload rest : Bytes}
    (hb : Block L data payload rest) (hlen : payload.length ≤ L.maxSize) :
    Oversized L (k + 1) data ↔ Oversized L k rest := by
  constructor
  · rintro (hn | ⟨payload', rest', hb', -, hov⟩)
    · obtain ⟨-, -, -, hval, -⟩ := (block_iff ..).1 hb
      have hlt := ((oversizedNumeral_iff L data).1 hn).2
      omega
    · obtain ⟨rfl, rfl⟩ := hb'.unique hb
      exact hov
  · intro hov
    exact Or.inr ⟨payload, rest, hb, hlen, hov⟩

theorem map_error_iff {α β : Type} (f : α → β) (r : Except StdException α) :
    (∃ e, r.map f = .error e) ↔ ∃ e, r = .error e := by
  cases r <;> simp [Except.map]

theorem map_ok_iff {α β : Type} (f : α → β) (r : Except StdException α) (b : β) :
    r.map f = .ok b ↔ ∃ a, r = .ok a ∧ f a = b := by
  cases r <;> simp [Except.map]

theorem not_error_of_ok {α : Type} {r : Except StdException α} (h : ∃ a, r = .ok a) :
    ¬ ∃ e, r = .error e := by
  rintro ⟨e, he⟩
  obtain ⟨a, ha⟩ := h
  exact absurd (ha.symm.trans he) (by simp)

/-- When the loop throws: an oversized numeral in one of the places of a length, or nothing but
whitespace and an oversized value in the size before it. -/
theorem readMembers_error_iff (L : Limits) (k : ℕ) (data : Bytes) (old : ℕ) :
    (∃ e, readMembers L k ⟨data, false, false⟩ old = .error e) ↔
      Oversized L k data ∨ (0 < k ∧ Blank data ∧ L.maxSize < old) := by
  induction k generalizing data old with
  | zero => simp [readMembers, Oversized]
  | succ k ih =>
    by_cases hblank : data.dropWhile isSpace = []
    · have hno : ¬ Oversized L (k + 1) data :=
        not_oversized_of_no_digits (by rw [hblank]; rfl)
      simp only [hno, blank_iff, hblank, Nat.succ_pos, true_and, false_or]
      by_cases hold : L.maxSize < old
      · refine iff_of_true ⟨.length_error, ?_⟩ hold
        simp [readMembers, IStream.extract_blank hblank, hold]
      · exact iff_of_false (not_error_of_ok (readMembers_blank k hblank (Nat.not_lt.mp hold))) hold
    · simp only [blank_iff, hblank, false_and, and_false, or_false]
      by_cases hd : (scan (data.dropWhile isSpace)).digits = []
      · exact iff_of_false (not_error_of_ok (readMembers_no_digits k old hblank hd))
          (not_oversized_of_no_digits hd)
      · by_cases hbig : L.maxSize < IStream.unsignedValue L.sizeMax (scan (data.dropWhile isSpace))
        · -- the numeral is oversized: the buffer cannot be built
          have hnum : OversizedNumeral L data := (oversizedNumeral_iff L data).2 ⟨hd, hbig⟩
          refine iff_of_true ⟨.length_error, ?_⟩ (Or.inl hnum)
          simp [readMembers, IStream.extract_numeral rfl hd, hbig]
        · by_cases hb : ∃ payload rest, Block L data payload rest
          · -- the round succeeds, and the stream is good for the next one
            obtain ⟨payload, rest, hb⟩ := hb
            have hlen : payload.length ≤ L.maxSize := by
              obtain ⟨-, -, -, hlen, -⟩ := (block_iff ..).1 hb
              exact hlen ▸ Nat.not_lt.mp hbig
            rw [readMembers_block k old hb hlen, map_error_iff, oversized_succ_of_block hb hlen, ih]
            simp [Nat.not_lt.mpr hlen]
          · -- the stream fails, and the length read last fits a container
            refine iff_of_false (not_error_of_ok (readMembers_not_block k old hd
              (Nat.not_lt.mp hbig) fun payload rest h => hb ⟨payload, rest, h⟩)) ?_
            rintro (h | ⟨payload, rest, h, -⟩)
            · exact hbig ((oversizedNumeral_iff L data).1 h).2
            · exact hb ⟨payload, rest, h⟩

/-- The data on which an exception leaves the decoder. -/
def Undecodable (L : Limits) (garbage : ℕ) (data : PluginData) : Prop :=
  Oversized L 3 data ∨ (Blank data ∧ L.maxSize < garbage)

theorem dataToRequest_error_iff (L : Limits) (garbage : ℕ) (data : PluginData) :
    (∃ e, dataToRequest L garbage data = .error e) ↔ Undecodable L garbage data := by
  have h := readMembers_error_iff L 3 data garbage
  simp only [Nat.succ_pos, true_and] at h
  rw [Undecodable, ← h, dataToRequest]
  cases readMembers L 3 ⟨data, false, false⟩ garbage <;> simp

end Translator

end AskUser
