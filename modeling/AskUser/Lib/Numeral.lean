import Mathlib.Tactic
import Mathlib.Data.List.TakeWhile

/-!
# Decimal numerals over byte strings

What the C++ library prints and reads when a number crosses a byte string, with the default C
locale (no digit grouping).

* `numeral n` and `intNumeral z` are `std::to_string` of an unsigned and of a signed number;
* `value ds` is the number a run of digits stands for; it is unbounded, limits are the reader's;
* `scan s` splits a text after an optional sign and a maximal run of digits, the part of a
  numeral that `operator>>` and the `strtol` family accumulate;
* `IsNumeral s` says that a text is such a part, and nothing else.

A numeral followed by anything but a digit scans back to itself (`scan_numeral_append`), and
numerals of distinct numbers are distinct (`numeral_injective`).
-/

namespace ByteText

/-- A byte string: the contents of a `std::string`, or of any other buffer of `char`. -/
abbrev Bytes := List UInt8

/-- The byte of an ASCII character. -/
def byte (c : Char) : UInt8 := UInt8.ofNat c.toNat

/-- The bytes of an ASCII text. -/
def text (s : String) : Bytes := s.toList.map byte

/-- `isspace` of the C locale: blank, and tab to carriage return. -/
def isSpace (b : UInt8) : Bool := b == 32 || (9 ≤ b && b ≤ 13)

/-- `isdigit`. -/
def isDigit (b : UInt8) : Bool := 48 ≤ b && b ≤ 57

/-- The number that a run of digits stands for, most significant digit first. -/
def value (ds : Bytes) : ℕ := ds.foldl (fun n d => 10 * n + (d.toNat - 48)) 0

/-- `std::to_string` of an unsigned number. -/
def numeral (n : ℕ) : Bytes := (Nat.toDigits 10 n).map byte

/-- `std::to_string` of a signed number. -/
def intNumeral (z : ℤ) : Bytes :=
  if z < 0 then byte '-' :: numeral z.natAbs else numeral z.natAbs

/-! ### Printing -/

theorem value_append_singleton (ds : Bytes) (d : UInt8) :
    value (ds ++ [d]) = 10 * value ds + (d.toNat - 48) := by
  simp [value]

theorem byte_digitChar_toNat {d : ℕ} (h : d < 10) : (byte d.digitChar).toNat = 48 + d := by
  interval_cases d <;> rfl

theorem isDigit_iff (b : UInt8) : isDigit b = true ↔ 48 ≤ b.toNat ∧ b.toNat ≤ 57 := by
  simp [isDigit, UInt8.le_iff_toNat_le]

/-- A number below ten is one digit, and any other number is its quotient and its last digit. -/
theorem numeral_eq (n : ℕ) :
    numeral n = (if n < 10 then [] else numeral (n / 10)) ++ [byte (n % 10).digitChar] := by
  unfold numeral
  rw [Nat.toDigits_eq_if (by norm_num : 1 < 10)]
  split_ifs with h
  · simp [Nat.mod_eq_of_lt h]
  · simp

theorem numeral_ne_nil (n : ℕ) : numeral n ≠ [] := by
  simp [numeral]

theorem value_numeral (n : ℕ) : value (numeral n) = n := by
  induction n using Nat.strong_induction_on with
  | _ n ih =>
    rw [numeral_eq, value_append_singleton, byte_digitChar_toNat (Nat.mod_lt n (by norm_num))]
    split_ifs with h
    · simp only [value, List.foldl_nil]
      omega
    · rw [ih (n / 10) (by omega)]
      omega

theorem isDigit_of_mem_numeral {n : ℕ} {b : UInt8} (h : b ∈ numeral n) : isDigit b = true := by
  induction n using Nat.strong_induction_on with
  | _ n ih =>
    rw [numeral_eq, List.mem_append, List.mem_singleton] at h
    rcases h with h | rfl
    · split_ifs at h with hn
      · simp at h
      · exact ih (n / 10) (by omega) h
    · have hd : n % 10 < 10 := Nat.mod_lt n (by norm_num)
      rw [isDigit_iff, byte_digitChar_toNat hd]
      omega

theorem numeral_injective : Function.Injective numeral := by
  intro a b h
  rw [← value_numeral a, h, value_numeral]

/-- A numeral at the end of a text, behind a byte that is not a digit, can be told from what
stands before it: it is the longest run of digits at the end. -/
theorem append_numeral_inj {x y : Bytes} {sep : UInt8} (hsep : isDigit sep = false) {m n : ℕ}
    (h : x ++ sep :: numeral m = y ++ sep :: numeral n) : x = y ∧ m = n := by
  have digits : ∀ (z : Bytes) (k : ℕ),
      (z ++ sep :: numeral k).reverse.takeWhile isDigit = (numeral k).reverse := by
    intro z k
    rw [List.reverse_append, List.reverse_cons, List.append_assoc,
      List.takeWhile_append_of_pos fun b hb => isDigit_of_mem_numeral (List.mem_reverse.1 hb)]
    simp [hsep]
  have hmn : m = n := by
    apply numeral_injective
    rw [← List.reverse_inj, ← digits x m, ← digits y n, h]
  subst hmn
  exact ⟨List.append_cancel_right h, rfl⟩

/-! ### Scanning -/

/-- An optional sign: whether it is a minus, and what follows it. -/
def splitSign : Bytes → Bool × Bytes
  | [] => (false, [])
  | b :: s =>
    if b = byte '-' then (true, s) else if b = byte '+' then (false, s) else (false, b :: s)

/-- What a scan of a numeral saw: the sign, the digits, and the unread rest. -/
structure Scanned where
  negative : Bool
  digits : Bytes
  rest : Bytes
  deriving DecidableEq

/-- Read an optional sign and as many digits as there are. -/
def scan (s : Bytes) : Scanned :=
  { negative := (splitSign s).1
    digits := (splitSign s).2.takeWhile isDigit
    rest := (splitSign s).2.dropWhile isDigit }

/-- The rest does not go on with a digit. -/
def NoDigitNext (s : Bytes) : Prop := ∀ b ∈ s.head?, isDigit b = false

theorem splitSign_of_digit {b : UInt8} {s : Bytes} (h : isDigit b = true) :
    splitSign (b :: s) = (false, b :: s) := by
  have hminus : b ≠ byte '-' := by rintro rfl; exact absurd h (by decide)
  have hplus : b ≠ byte '+' := by rintro rfl; exact absurd h (by decide)
  simp [splitSign, hminus, hplus]

theorem takeWhile_digits {ds s : Bytes} (hd : ∀ b ∈ ds, isDigit b = true) (hs : NoDigitNext s) :
    (ds ++ s).takeWhile isDigit = ds := by
  rw [List.takeWhile_append_of_pos hd]
  cases s with
  | nil => simp
  | cons b s => simp [hs b (by simp)]

theorem dropWhile_digits {ds s : Bytes} (hd : ∀ b ∈ ds, isDigit b = true) (hs : NoDigitNext s) :
    (ds ++ s).dropWhile isDigit = s := by
  rw [List.dropWhile_append_of_pos hd]
  cases s with
  | nil => simp
  | cons b s => simp [hs b (by simp)]

/-- A run of digits, not followed by another digit, scans to itself. -/
theorem scan_digits {ds s : Bytes} (hne : ds ≠ []) (hd : ∀ b ∈ ds, isDigit b = true)
    (hs : NoDigitNext s) : scan (ds ++ s) = ⟨false, ds, s⟩ := by
  obtain ⟨b, t, rfl⟩ := List.exists_cons_of_ne_nil hne
  have hsplit : splitSign (b :: t ++ s) = (false, b :: t ++ s) :=
    splitSign_of_digit (hd b (by simp))
  simp only [scan, hsplit, takeWhile_digits hd hs, dropWhile_digits hd hs]

theorem scan_numeral_append (n : ℕ) {s : Bytes} (hs : NoDigitNext s) :
    scan (numeral n ++ s) = ⟨false, numeral n, s⟩ :=
  scan_digits (numeral_ne_nil n) (fun _ => isDigit_of_mem_numeral) hs

/-- A minus sign and a run of digits, not followed by another digit. -/
theorem scan_minus {ds s : Bytes} (hd : ∀ b ∈ ds, isDigit b = true) (hs : NoDigitNext s) :
    scan (byte '-' :: ds ++ s) = ⟨true, ds, s⟩ := by
  have hsplit : splitSign (byte '-' :: ds ++ s) = (true, ds ++ s) := by simp [splitSign]
  simp only [scan, hsplit, takeWhile_digits hd hs, dropWhile_digits hd hs]

/-! ### Signed numerals -/

/-- What may stand before the digits of a numeral. -/
def IsSign (s : Bytes) : Prop := s = [] ∨ s = [byte '-'] ∨ s = [byte '+']

/-- An optionally signed decimal numeral, and nothing else. -/
def IsNumeral (s : Bytes) : Prop :=
  ∃ sign ds, s = sign ++ ds ∧ IsSign sign ∧ ds ≠ [] ∧ ∀ b ∈ ds, isDigit b = true

/-- A scan cuts its text in three. -/
theorem scan_split (t : Bytes) :
    ∃ sign, IsSign sign ∧ t = sign ++ (scan t).digits ++ (scan t).rest := by
  have hsplit : ∃ sign, IsSign sign ∧ t = sign ++ (splitSign t).2 := by
    cases t with
    | nil => exact ⟨[], Or.inl rfl, rfl⟩
    | cons b s =>
      by_cases hminus : b = byte '-'
      · exact ⟨[b], Or.inr (Or.inl (by rw [hminus])), by simp [splitSign, hminus]⟩
      · by_cases hplus : b = byte '+'
        · refine ⟨[b], Or.inr (Or.inr (by rw [hplus])), ?_⟩
          rw [splitSign, if_neg hminus, if_pos hplus]
          rfl
        · exact ⟨[], Or.inl rfl, by simp [splitSign, hminus, hplus]⟩
  obtain ⟨sign, hsign, ht⟩ := hsplit
  refine ⟨sign, hsign, ?_⟩
  rw [List.append_assoc, scan, List.takeWhile_append_dropWhile, ← ht]

theorem isDigit_of_mem_scan {t : Bytes} {b : UInt8} (h : b ∈ (scan t).digits) :
    isDigit b = true :=
  List.mem_takeWhile_imp h

/-- The digits of a scan are all there are. -/
theorem noDigitNext_scan_rest (t : Bytes) : NoDigitNext (scan t).rest := by
  intro b hb
  have h := List.head?_dropWhile_not isDigit (splitSign t).2
  simp only [scan] at hb
  rw [hb] at h
  simpa using h

/-- A signed run of digits, not followed by another digit, scans to itself. -/
theorem scan_signed {sign ds s : Bytes} (hsign : IsSign sign) (hne : ds ≠ [])
    (hd : ∀ b ∈ ds, isDigit b = true) (hs : NoDigitNext s) :
    scan (sign ++ ds ++ s) = ⟨decide (sign = [byte '-']), ds, s⟩ := by
  rcases hsign with rfl | rfl | rfl
  · rw [List.nil_append, scan_digits hne hd hs]
    rfl
  · rw [List.singleton_append, scan_minus hd hs]
    rfl
  · have hsplit : splitSign (byte '+' :: ds ++ s) = (false, ds ++ s) := rfl
    simp only [scan, List.singleton_append, hsplit, takeWhile_digits hd hs, dropWhile_digits hd hs]
    rfl

end ByteText
