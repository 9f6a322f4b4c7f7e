import AskUser.Lib.Numeral

/-!
# Reading text: `std::istream` and `std::stoll`

The stream operations of the C++ library on a string stream, with the default format flags
(decimal, skip leading whitespace) and the C locale.

* `IStream` is a stream over the bytes not yet read, with its `eofbit` and `failbit`;
* `IStream.extract` is `operator>>` into an unsigned integer;
* `IStream.read` is the unformatted `read`;
* `stoll` is `std::stoll` in base ten.

`extract` has five outcomes (`IStream.extract` splits them in the order of the standard): a stream
that is not good, and a stream in which only whitespace is left, leave the variable as it was;
a text with no digits stores zero; a numeral beyond the limit stores the limit; any other
numeral stores its value, negated modulo `max + 1` after a minus sign.
-/

namespace ByteText

/-- A string stream: the bytes not read yet and the two state bits that reading sets. -/
structure IStream where
  rest : Bytes
  eofbit : Bool := false
  failbit : Bool := false
  deriving DecidableEq

namespace IStream

/-- `good()`. -/
def good (s : IStream) : Bool := !s.eofbit && !s.failbit

/-- The value that an in-range scan stores into an unsigned variable with limit `max`. -/
def unsignedValue (max : ℕ) (n : Scanned) : ℕ :=
  if max < value n.digits then max
  else if n.negative then (max + 1 - value n.digits) % (max + 1)
  else value n.digits

/-- `operator>>` into an unsigned integer with limit `max` that holds `old` before. -/
def extract (max : ℕ) (s : IStream) (old : ℕ) : IStream × ℕ :=
  if s.good then
    match s.rest.dropWhile isSpace with
    | [] => (⟨[], true, true⟩, old)
    | b :: t =>
      let n := scan (b :: t)
      if n.digits = [] then (⟨n.rest, n.rest.isEmpty, true⟩, 0)
      else (⟨n.rest, n.rest.isEmpty, decide (max < value n.digits)⟩, unsignedValue max n)
  else ({ s with failbit := true }, old)

/-- `read` of `n` bytes: what was read, and the stream after it. A short read sets both bits. -/
def read (n : ℕ) (s : IStream) : Bytes × IStream :=
  if s.good then
    if n ≤ s.rest.length then (s.rest.take n, { s with rest := s.rest.drop n })
    else (s.rest, ⟨[], true, true⟩)
  else ([], { s with failbit := true })

/-! ### Good and failed streams -/

theorem extract_of_not_good {max old : ℕ} {s : IStream} (h : s.good = false) :
    s.extract max old = ({ s with failbit := true }, old) := by
  simp [extract, h]

theorem read_of_not_good {n : ℕ} {s : IStream} (h : s.good = false) :
    s.read n = ([], { s with failbit := true }) := by
  simp [read, h]

@[simp] theorem good_mk (r : Bytes) : (⟨r, false, false⟩ : IStream).good = true := rfl

@[simp] theorem good_failed (r : Bytes) (eof : Bool) : (⟨r, eof, true⟩ : IStream).good = false := by
  simp [good]

/-- Only whitespace is left: the variable keeps its old value. -/
theorem extract_blank {max old : ℕ} {r : Bytes} (h : r.dropWhile isSpace = []) :
    (⟨r, false, false⟩ : IStream).extract max old = (⟨[], true, true⟩, old) := by
  simp [extract, h]

/-- What follows the whitespace does not start with a numeral: zero is stored. -/
theorem extract_no_digits (max old : ℕ) {r : Bytes} (hr : r.dropWhile isSpace ≠ [])
    (h : (scan (r.dropWhile isSpace)).digits = []) :
    ((⟨r, false, false⟩ : IStream).extract max old).1.good = false ∧
      ((⟨r, false, false⟩ : IStream).extract max old).2 = 0 := by
  obtain ⟨b, t, hbt⟩ := List.exists_cons_of_ne_nil hr
  rw [hbt] at h
  simp [extract, hbt, h, good]

/-- Whitespace and then a numeral. -/
theorem extract_numeral {max old : ℕ} {r : Bytes} {n : Scanned}
    (hn : scan (r.dropWhile isSpace) = n) (h : n.digits ≠ []) :
    (⟨r, false, false⟩ : IStream).extract max old =
      (⟨n.rest, n.rest.isEmpty, decide (max < value n.digits)⟩, unsignedValue max n) := by
  subst hn
  cases hr : r.dropWhile isSpace with
  | nil => rw [hr] at h; exact absurd rfl h
  | cons b t => rw [hr] at h; simp [extract, hr, h]

theorem unsignedValue_of_le {max : ℕ} {n : Scanned} (h : value n.digits ≤ max)
    (hn : n.negative = false) : unsignedValue max n = value n.digits := by
  simp [unsignedValue, hn, Nat.not_lt.mpr h]

theorem read_le {n : ℕ} {r : Bytes} (h : n ≤ r.length) :
    (⟨r, false, false⟩ : IStream).read n = (r.take n, ⟨r.drop n, false, false⟩) := by
  simp [read, h]

theorem read_short {n : ℕ} {r : Bytes} (h : r.length < n) :
    (⟨r, false, false⟩ : IStream).read n = (r, ⟨[], true, true⟩) := by
  simp [read, Nat.not_le.mpr h]

theorem length_read_le (n : ℕ) (s : IStream) : (s.read n).1.length ≤ n := by
  unfold read
  split_ifs with hgood hlen
  · rw [List.length_take]
    omega
  · exact Nat.le_of_lt (Nat.not_le.1 hlen)
  · exact Nat.zero_le n

end IStream

/-! ### `std::stoll` -/

/-- The two exceptions of `std::stoll`. -/
inductive StollError
  | invalid_argument
  | out_of_range
  deriving DecidableEq

/-- The number a scan stands for. -/
def Scanned.toInt (n : Scanned) : ℤ := if n.negative then -(value n.digits : ℤ) else value n.digits

/-- `std::stoll`: skip whitespace, read a signed numeral, ignore what follows it. -/
def stoll (s : Bytes) : Except StollError ℤ :=
  let n := scan (s.dropWhile isSpace)
  if n.digits = [] then .error .invalid_argument
  else if n.toInt < -2 ^ 63 ∨ 2 ^ 63 ≤ n.toInt then .error .out_of_range
  else .ok n.toInt

theorem dropWhile_isSpace_of_digit {b : UInt8} {s : Bytes} (h : isDigit b = true) :
    (b :: s).dropWhile isSpace = b :: s := by
  rw [isDigit_iff] at h
  have hb : isSpace b = false := by
    simp only [isSpace, Bool.or_eq_false_iff, beq_eq_false_iff_ne, ne_eq, Bool.and_eq_false_iff,
      decide_eq_false_iff_not, UInt8.le_iff_toNat_le]
    exact ⟨by rintro rfl; exact absurd h.1 (by decide), Or.inr (by simpa using by omega)⟩
  simp [hb]

/-- A printed number is read back up to the 64-bit range, and refused outside it. -/
theorem stoll_intNumeral (z : ℤ) :
    stoll (intNumeral z) =
      if z < -2 ^ 63 ∨ 2 ^ 63 ≤ z then .error .out_of_range else .ok z := by
  have hs : NoDigitNext [] := by simp [NoDigitNext]
  have hdig := fun b (h : b ∈ numeral z.natAbs) => isDigit_of_mem_numeral h
  have hscan : scan ((intNumeral z).dropWhile isSpace) =
      ⟨decide (z < 0), numeral z.natAbs, []⟩ := by
    unfold intNumeral
    split_ifs with hz
    · have hsp : isSpace (byte '-') = false := by decide
      rw [List.dropWhile_cons_of_neg (by simp [hsp]), ← List.append_nil (_ :: numeral _),
        scan_minus hdig hs]
      simp [hz]
    · obtain ⟨b, t, hbt⟩ := List.exists_cons_of_ne_nil (numeral_ne_nil z.natAbs)
      rw [hbt, dropWhile_isSpace_of_digit (hdig b (by simp [hbt])), ← hbt,
        ← List.append_nil (numeral _), scan_numeral_append _ hs]
      simp [hz]
  have hint : (⟨decide (z < 0), numeral z.natAbs, []⟩ : Scanned).toInt = z := by
    simp only [Scanned.toInt, value_numeral, decide_eq_true_eq]
    split_ifs <;> omega
  simp only [stoll, hscan, numeral_ne_nil, if_false, hint]

end ByteText
