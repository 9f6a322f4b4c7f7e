import AskUser.Lib.Numeral

/-!
# C strings and `snprintf`

* `CString` are the byte strings without a NUL. `c_str s` is what a C function sees of a
  `std::string`: the bytes before the first NUL;
* `expand fmt args` is the text that `printf` makes of a format whose only directives are `%s`;
* `snprintf` writes such a text into a buffer: it cuts it off where the buffer ends, and returns the
  length of the whole text, or a negative number when that is out of the range of `int`.
-/

namespace ByteText

/-- A string as C functions know it. -/
structure CString where
  bytes : Bytes
  noNul : (0 : UInt8) ∉ bytes
  deriving DecidableEq

/-- `std::string::c_str()`, as far as a C function reads it. -/
def c_str (s : Bytes) : CString where
  bytes := s.takeWhile fun b => b ≠ 0
  noNul h := by simpa using List.mem_takeWhile_imp h

theorem c_str_bytes {s : Bytes} (h : (0 : UInt8) ∉ s) : (c_str s).bytes = s := by
  show s.takeWhile _ = s
  rw [List.takeWhile_eq_self_iff]
  intro b hb
  simp only [ne_eq, decide_eq_true_eq]
  rintro rfl
  exact h hb

theorem length_c_str_le (s : Bytes) : (c_str s).bytes.length ≤ s.length :=
  (List.takeWhile_sublist _).length_le

/-- The text of a format with the directives `%s`, and one argument for each of them. -/
def expand : Bytes → List CString → Bytes
  | [], _ => []
  | [b], _ => [b]
  | b :: b' :: fmt, args =>
    if b = byte '%' ∧ b' = byte 's' then
      (args.head?.map CString.bytes).getD [] ++ expand fmt args.tail
    else b :: expand (b' :: fmt) args

/-- The directive `%s`. -/
def directive : Bytes := [byte '%', byte 's']

/-- Text without a percent sign stands for itself. -/
theorem expand_plain {s : Bytes} (h : byte '%' ∉ s) (fmt : Bytes) (args : List CString) :
    expand (s ++ fmt) args = s ++ expand fmt args := by
  induction s with
  | nil => rfl
  | cons b s ih =>
    rw [List.mem_cons, not_or] at h
    rw [List.cons_append, List.cons_append, ← ih h.2]
    cases hrest : s ++ fmt with
    | nil => rfl
    | cons b' t => rw [expand, if_neg fun hb => h.1 hb.1.symm]

theorem expand_directive (fmt : Bytes) (a : CString) (args : List CString) :
    expand (directive ++ fmt) (a :: args) = a.bytes ++ expand fmt args := by
  show expand (byte '%' :: byte 's' :: fmt) (a :: args) = _
  rw [expand, if_pos ⟨rfl, rfl⟩]
  rfl

theorem noNul_expand {fmt : Bytes} (h : (0 : UInt8) ∉ fmt) (args : List CString) :
    (0 : UInt8) ∉ expand fmt args := by
  induction fmt, args using expand.induct with
  | case1 => exact h
  | case2 => exact h
  | case3 b b' fmt args hdir ih =>
    rw [expand, if_pos hdir, List.mem_append, not_or]
    refine ⟨?_, ih fun hmem => h (by simp [hmem])⟩
    cases args with
    | nil => exact List.not_mem_nil
    | cons a args => exact a.noNul
  | case4 b b' fmt args hdir ih =>
    rw [List.mem_cons, not_or] at h
    rw [expand, if_neg hdir, List.mem_cons, not_or]
    exact ⟨h.1, ih h.2⟩

/-- The limits of the C library: the size of a standard buffer, and of an `int`. -/
structure LibcLimits where
  BUFSIZ : ℕ
  INT_MAX : ℕ

/-- The limits of glibc. -/
def LibcLimits.glibc : LibcLimits := ⟨8192, 2 ^ 31 - 1⟩

/-- `snprintf` into a buffer of `n` bytes, for a format with the directives `%s`: the value that is
returned, and the string that is in the buffer afterwards. -/
def snprintf (C : LibcLimits) (n : ℕ) (fmt : CString) (args : List CString) : ℤ × CString :=
  let out := expand fmt.bytes args
  if C.INT_MAX < out.length then (-1, ⟨[], List.not_mem_nil⟩)
  else (out.length, ⟨out.take (n - 1), fun h =>
    noNul_expand fmt.noNul args (List.mem_of_mem_take h)⟩)

/-- The value says whether the text has a length at all; that it was cut off is no failure. -/
theorem snprintf_neg_iff {C : LibcLimits} {n : ℕ} {fmt : CString} {args : List CString} :
    (snprintf C n fmt args).1 < 0 ↔ C.INT_MAX < (expand fmt.bytes args).length := by
  unfold snprintf
  simp only
  split_ifs with h
  · simp [h]
  · exact iff_of_false (Int.not_lt.2 (Int.natCast_nonneg _)) h

theorem snprintf_bytes {C : LibcLimits} {n : ℕ} {fmt : CString} {args : List CString}
    (h : ¬ C.INT_MAX < (expand fmt.bytes args).length) :
    (snprintf C n fmt args).2.bytes = (expand fmt.bytes args).take (n - 1) := by
  rw [snprintf, if_neg h]

end ByteText
