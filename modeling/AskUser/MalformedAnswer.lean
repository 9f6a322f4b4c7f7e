import AskUser.RequestFormat
import AskUser.ServicePlugin

/-!
# Malformed answers

The service plugin refuses an answer by the `TranslateErrorException` of `dataToAnswer`, which
leaves what is a number to `std::stoll`. That function skips whitespace and stops at the first byte
that is no digit, and `dataToAnswer` does not ask how much of its text was read.

* `dataToAnswer_ok_iff`: what is accepted, by the numeral that a scan finds behind the whitespace;
* `rejects_iff`: the data that are no answer are refused, except the `Padded` ones.
-/

namespace AskUser
open ByteText Translator

namespace Translator.Plugin

/-- Which data other than the two error texts are accepted. -/
theorem dataToAnswer_ok_iff (P : PredefinedPolicyType) {data : PluginData}
    (hne : ¬ (data = AgentErrorMsg.Error ∨ data = AgentErrorMsg.Timeout)) :
    (∃ t, dataToAnswer P data = .ok t) ↔
      (scan (data.dropWhile isSpace)).digits ≠ [] ∧
        -2 ^ 63 ≤ (scan (data.dropWhile isSpace)).toInt ∧
        (scan (data.dropWhile isSpace)).toInt ≤ maxPolicyType := by
  set n := scan (data.dropWhile isSpace) with hn
  unfold dataToAnswer stoll
  rw [if_neg hne]
  simp only [← hn]
  by_cases hd : n.digits = []
  · simp [hd]
  · by_cases hr : n.toInt < -2 ^ 63 ∨ 2 ^ 63 ≤ n.toInt
    · rw [if_neg hd, if_pos hr]
      refine iff_of_false (by simp) fun ⟨_, hlow, hhigh⟩ => ?_
      simp only [maxPolicyType] at hhigh
      omega
    · rw [if_neg hd, if_neg hr]
      by_cases hm : maxPolicyType < n.toInt
      · refine iff_of_false (by simp [hm]) fun ⟨_, _, hhigh⟩ => ?_
        omega
      · exact iff_of_true ⟨_, if_neg hm⟩ ⟨hd, by omega, by omega⟩

theorem dataToAnswer_error_iff (P : PredefinedPolicyType) (data : PluginData) :
    (∃ e, dataToAnswer P data = .error e) ↔ ¬ ∃ t, dataToAnswer P data = .ok t := by
  cases dataToAnswer P data <;> simp

end Translator.Plugin

open Translator.Plugin

/-- A numeral that `dataToAnswer` lets through, with whitespace before it or more bytes after it,
the first of which is no digit. -/
def Padded (data : PluginData) : Prop :=
  ∃ ws num rest, data = ws ++ num ++ rest ∧ Blank ws ∧ IsNumeral num ∧ NoDigitNext rest ∧
    (ws ≠ [] ∨ rest ≠ []) ∧ -2 ^ 63 ≤ (scan num).toInt ∧ (scan num).toInt ≤ maxPolicyType

/-- What should become of data that are neither an error text nor a numeral: the decoder throws,
and `update` leaves its result and the plugin as they are. -/
def RejectsNonAnswer (P : PredefinedPolicyType) (data : PluginData) : Prop :=
  data ≠ AgentErrorMsg.Error → data ≠ AgentErrorMsg.Timeout → ¬ IsNumeral data →
    (∃ e, dataToAnswer P data = .error e) ∧
      ∀ (plugin : AskUserPlugin) (key : Key) (result : PolicyResult),
        plugin.update P key data result = some (.ERROR, result, plugin)

variable {data : PluginData}

/-- The scan of a padded numeral finds the numeral. -/
theorem scan_padded {ws num rest : Bytes} (hws : Blank ws) (hnum : IsNumeral num)
    (hrest : NoDigitNext rest) :
    (scan ((ws ++ num ++ rest).dropWhile isSpace)).digits ≠ [] ∧
      (scan ((ws ++ num ++ rest).dropWhile isSpace)).toInt = (scan num).toInt := by
  obtain ⟨sign, ds, rfl, hsign, hne, hd⟩ := hnum
  have hscan := scan_signed hsign hne hd hrest
  have hnil : NoDigitNext [] := by simp [NoDigitNext]
  have hscan' := scan_signed hsign hne hd hnil
  rw [List.append_nil] at hscan'
  rw [List.append_assoc ws, List.dropWhile_append_of_pos hws,
    dropWhile_isSpace_of_scan (by rw [hscan]; exact hne), hscan, hscan']
  exact ⟨hne, rfl⟩

/-- A text that starts with whitespace, or has another byte than a digit after a numeral, is no
numeral itself. -/
theorem Padded.not_numeral (h : Padded data) : ¬ IsNumeral data := by
  obtain ⟨ws, num, rest, rfl, hws, hnum, hrest, hpad, -⟩ := h
  intro hdata
  have hnil : NoDigitNext [] := by simp [NoDigitNext]
  obtain ⟨sign, ds, hsplit, hsign, hne, hd⟩ := hdata
  have hscan := scan_signed hsign hne hd hnil
  rw [List.append_nil, ← hsplit] at hscan
  -- nothing stands before a numeral, so the whitespace is empty, and nothing behind its digits
  have hdrop := dropWhile_isSpace_of_scan (t := ws ++ num ++ rest) (by rw [hscan]; exact hne)
  have hws' : ws = [] := by
    cases ws with
    | nil => rfl
    | cons b ws =>
      have hb : isSpace b = true := hws b List.mem_cons_self
      rw [List.append_assoc, List.cons_append, List.dropWhile_cons_of_pos hb] at hdrop
      have := List.length_dropWhile_le isSpace (ws ++ (num ++ rest))
      rw [hdrop] at this
      simp at this
  subst hws'
  obtain ⟨sign', ds', rfl, hsign', hne', hd'⟩ := hnum
  have hscan' := scan_signed hsign' hne' hd' hrest
  rw [List.nil_append, hscan', Scanned.mk.injEq] at hscan
  exact hpad.elim (fun h => h rfl) fun h => h hscan.2.2

theorem Padded.not_errMsg (h : Padded data) :
    ¬ (data = AgentErrorMsg.Error ∨ data = AgentErrorMsg.Timeout) := by
  obtain ⟨ws, num, rest, rfl, hws, hnum, hrest, -⟩ := h
  have hscan := (scan_padded hws hnum hrest).1
  rintro (he | he)
  · rw [he] at hscan
    exact hscan (by decide)
  · rw [he] at hscan
    exact hscan (by decide)

/-- Data that are accepted are a numeral, or a padded one. -/
theorem padded_of_ok {P : PredefinedPolicyType} {t : PolicyType}
    (hne : ¬ (data = AgentErrorMsg.Error ∨ data = AgentErrorMsg.Timeout))
    (hnum : ¬ IsNumeral data) (h : dataToAnswer P data = .ok t) : Padded data := by
  obtain ⟨hd, hlow, hhigh⟩ := (dataToAnswer_ok_iff P hne).1 ⟨t, h⟩
  obtain ⟨sign, hsign, hsplit⟩ := scan_split (data.dropWhile isSpace)
  have hnumeral : IsNumeral (sign ++ (scan (data.dropWhile isSpace)).digits) :=
    ⟨sign, _, rfl, hsign, hd, fun _ => isDigit_of_mem_scan⟩
  have hrest := noDigitNext_scan_rest (data.dropWhile isSpace)
  have hdata : data = data.takeWhile isSpace ++
      (sign ++ (scan (data.dropWhile isSpace)).digits) ++
        (scan (data.dropWhile isSpace)).rest := by
    rw [List.append_assoc, ← hsplit, List.takeWhile_append_dropWhile]
  have hint := (scan_padded (blank_takeWhile data) hnumeral hrest).2
  rw [← hdata] at hint
  refine ⟨_, _, _, hdata, blank_takeWhile data, hnumeral, hrest, ?_, hint ▸ hlow, hint ▸ hhigh⟩
  -- with nothing before it and nothing after it, the data would be the numeral
  by_contra hpad
  rw [not_or, not_not, not_not] at hpad
  rw [hpad.1, hpad.2, List.nil_append, List.append_nil] at hdata
  exact hnum (hdata ▸ hnumeral)

/-- **Exactly the padded numerals are accepted without being an answer**: whitespace before a
number, or anything after it, goes unnoticed. -/
theorem rejects_iff (P : PredefinedPolicyType) (data : PluginData) :
    RejectsNonAnswer P data ↔ ¬ Padded data := by
  constructor
  · intro h hpad
    have hne := hpad.not_errMsg
    obtain ⟨herr, -⟩ := h (fun he => hne (Or.inl he)) (fun he => hne (Or.inr he)) hpad.not_numeral
    refine (dataToAnswer_error_iff P data).1 herr ((dataToAnswer_ok_iff P hne).2 ?_)
    obtain ⟨ws, num, rest, rfl, hws, hnum, hrest, -, hlow, hhigh⟩ := hpad
    obtain ⟨hd, hint⟩ := scan_padded hws hnum hrest
    exact ⟨hd, hint ▸ hlow, hint ▸ hhigh⟩
  · intro hpad herror htimeout hnum
    have hne : ¬ (data = AgentErrorMsg.Error ∨ data = AgentErrorMsg.Timeout) := by
      rintro (he | he)
      · exact herror he
      · exact htimeout he
    obtain ⟨e, he⟩ := (dataToAnswer_error_iff P data).2 fun ⟨t, ht⟩ =>
      hpad (padded_of_ok hne hnum ht)
    exact ⟨⟨e, he⟩, fun plugin key result => by simp only [AskUserPlugin.update, he]⟩

/-- The number of a permanent grant, followed by a NUL byte. -/
def grantAndNul : PluginData := [byte '1', byte '3', 0]

/-- It is accepted, and the grant is remembered. -/
theorem not_rejects_grantAndNul : ¬ RejectsNonAnswer .cynara grantAndNul ∧
    ∃ plugin, AskUserPlugin.new.update .cynara ([], [], []) grantAndNul ⟨0⟩ =
        some (.SUCCESS, ⟨PredefinedPolicyType.cynara.ALLOW⟩, plugin) ∧
      (plugin.check .cynara ([], [], []) ⟨⟨0⟩, [], []⟩).map Prod.fst = some .ANSWER_READY := by
  refine ⟨fun h => ?_, _, rfl, by decide +kernel⟩
  have hnum : ¬ IsNumeral grantAndNul := by
    rintro ⟨sign, ds, hsplit, hsign, -, hd⟩
    have hmem : (0 : UInt8) ∈ sign ++ ds := hsplit ▸ by simp [grantAndNul]
    rcases List.mem_append.1 hmem with h0 | h0
    · rcases hsign with rfl | rfl | rfl <;> revert h0 <;> decide
    · exact absurd (hd 0 h0) (by decide)
  obtain ⟨⟨e, he⟩, -⟩ := h (by decide) (by decide) hnum
  have hok : dataToAnswer .cynara grantAndNul = .ok SupportedTypes.Client.ALLOW_PER_LIFE := by
    decide +kernel
  rw [hok] at he
  exact absurd he (by simp)

end AskUser
