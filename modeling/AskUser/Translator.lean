import AskUser.Types

/-!
# The translator

Both sides of the wire between the service plugin and the agent (`Translator.cpp`).

* `Translator.Plugin.requestToData` and `Translator.Agent.dataToRequest` carry the question: each
  string is preceded by its length in decimal and a separator, and followed by a separator;
* `Translator.Agent.answerToData` and `Translator.Plugin.dataToAnswer` carry the answer: the
  decimal number of a policy type, or one of the two error texts.

`dataToRequest` reads with stream operations whose failures it never looks at, so it is modelled
on the stream state; `garbage` is the indeterminate value of its uninitialised `strSize`.

The answer format is settled here (`dataToAnswer_intNumeral`): a number is read back exactly when
it is in the range of `PolicyType`, except that a negative number of the 64-bit range passes the
comparison with the maximum and is cut down modulo `2 ^ 16`.
-/

namespace AskUser
open ByteText

/-- `numeric_limits<PolicyType>::max()`, as the comparison with a `long long` promotes it. -/
def maxPolicyType : ℤ := 65535

/-- `TranslateErrorException`. -/
structure TranslateErrorException where
  what : Bytes
  deriving DecidableEq

/-- The exceptions of the C++ library: of a container that would be too long, and of a thread that
is joined without being joinable. -/
inductive StdException
  | length_error
  | system_error
  deriving DecidableEq

/-- The limits of the platform: of `size_t`, and of the number of bytes in a container. -/
structure Limits where
  sizeMax : ℕ
  maxSize : ℕ
  maxSize_le : maxSize ≤ sizeMax

/-- The limits of a 64-bit platform. -/
def Limits.lp64 : Limits where
  sizeMax := 2 ^ 64 - 1
  maxSize := 2 ^ 63 - 1
  maxSize_le := by norm_num

namespace Translator

namespace Agent

/-- The buffer of `strSize` zero bytes after `got` was read into it. -/
def fill (strSize : ℕ) (got : Bytes) : Bytes := got ++ List.replicate (strSize - got.length) 0

/-- The loop of `dataToRequest` over the members still to be read. -/
def readMembers (L : Limits) : ℕ → IStream → ℕ → Except StdException (List Bytes)
  | 0, _, _ => .ok []
  | k + 1, stream, strSize =>
    let (stream, strSize) := stream.extract L.sizeMax strSize
    -- the buffer is built before the stream is looked at again
    if L.maxSize < strSize then .error .length_error
    else
      let (_, stream) := stream.read 1
      let (got, stream) := stream.read strSize
      match readMembers L k stream strSize with
      | .error e => .error e
      | .ok members => .ok (fill strSize got :: members)

def dataToRequest (L : Limits) (garbage : ℕ) (data : PluginData) :
    Except StdException RequestData :=
  match readMembers L 3 ⟨data, false, false⟩ garbage with
  | .error e => .error e
  | .ok members => .ok ⟨members.getD 0 [], members.getD 1 [], members.getD 2 []⟩

def answerToData (answer : PolicyType) (errMsg : Bytes) : PluginData :=
  if errMsg = [] then numeral answer.toNat else errMsg

end Agent

namespace Plugin

def dataToAnswer (P : PredefinedPolicyType) (data : PluginData) :
    Except TranslateErrorException PolicyType :=
  if data = AgentErrorMsg.Error ∨ data = AgentErrorMsg.Timeout then .ok P.DENY
  else
    match stoll data with
    | .error _ => .error ⟨text "Could not convert response to PolicyType : " ++ data⟩
    | .ok policyType =>
      if maxPolicyType < policyType then
        .error ⟨text "Value of response exceeds max value of PolicyType : " ++
          intNumeral policyType⟩
      else .ok (UInt16.ofInt policyType)  -- `static_cast<PolicyType>`, modulo `2 ^ 16`

def requestToData (client user privilege : Bytes) : PluginData :=
  let separator := [byte ' ']
  numeral client.length ++ separator ++ client ++ separator ++
    numeral user.length ++ separator ++ user ++ separator ++
    numeral privilege.length ++ separator ++ privilege ++ separator

end Plugin

/-! ### The answer format -/

open AskUser.Translator.Agent AskUser.Translator.Plugin

theorem ofInt_toNat (z : ℤ) : ((UInt16.ofInt z).toNat : ℤ) = z % 65536 := by
  have h0 : 0 ≤ z % 65536 := Int.emod_nonneg _ (by norm_num)
  have h1 : z % 65536 < 65536 := Int.emod_lt_of_pos _ (by norm_num)
  simp only [UInt16.ofInt, UInt16.toNat_ofNat']
  omega

theorem ofInt_natCast_toNat (a : PolicyType) : UInt16.ofInt a.toNat = a := by
  have h : a.toNat < 65536 := a.toNat_lt
  apply UInt16.toNat_inj.1
  have := ofInt_toNat a.toNat
  omega

/-- The texts of the two errors are not numerals. -/
theorem intNumeral_ne_errMsg (z : ℤ) :
    ¬ (intNumeral z = AgentErrorMsg.Error ∨ intNumeral z = AgentErrorMsg.Timeout) := by
  -- a numeral starts with a minus sign or a digit, the texts with a letter
  have hne : ∀ b ∈ (intNumeral z).head?, b = byte '-' ∨ isDigit b = true := by
    intro b hb
    unfold intNumeral at hb
    split_ifs at hb with hz
    · left; simpa using hb.symm
    · right; exact isDigit_of_mem_numeral (List.mem_of_mem_head? hb)
  rintro (h | h)
  · rw [h] at hne
    exact absurd (hne (byte 'E') rfl) (by decide)
  · rw [h] at hne
    exact absurd (hne (byte 'T') rfl) (by decide)

/-- What the plugin reads when it is sent a number: the check against the maximum refuses what is
too large, and the conversion what does not fit 64 bits; everything else is cut down. -/
theorem dataToAnswer_intNumeral (P : PredefinedPolicyType) (z : ℤ) :
    (∃ e, dataToAnswer P (intNumeral z) = .error e) ∧ (z < -2 ^ 63 ∨ maxPolicyType < z) ∨
      dataToAnswer P (intNumeral z) = .ok (UInt16.ofInt z) ∧ -2 ^ 63 ≤ z ∧ z ≤ maxPolicyType := by
  unfold dataToAnswer
  rw [if_neg (intNumeral_ne_errMsg z), stoll_intNumeral]
  by_cases hr : z < -2 ^ 63 ∨ 2 ^ 63 ≤ z
  · left
    simp only [if_pos hr, maxPolicyType]
    exact ⟨⟨_, rfl⟩, by omega⟩
  · simp only [if_neg hr]
    by_cases hm : maxPolicyType < z
    · left
      exact ⟨⟨_, if_pos hm⟩, Or.inr hm⟩
    · right
      exact ⟨if_neg hm, by omega, by omega⟩

theorem answerToData_noError (a : PolicyType) :
    answerToData a AgentErrorMsg.NoError = intNumeral a.toNat := by
  simp [answerToData, AgentErrorMsg.NoError, intNumeral]

/-- An answer without an error text is read back as it was sent. -/
theorem dataToAnswer_answerToData (P : PredefinedPolicyType) (a : PolicyType) :
    dataToAnswer P (answerToData a AgentErrorMsg.NoError) = .ok a := by
  have ha : a.toNat < 65536 := a.toNat_lt
  rw [answerToData_noError]
  rcases dataToAnswer_intNumeral P a.toNat with ⟨-, h⟩ | ⟨h, -⟩
  · simp only [maxPolicyType] at h
    omega
  · rw [h, ofInt_natCast_toNat]

/-- Both error texts are read as a refusal, whatever answer came with them. -/
theorem dataToAnswer_errMsg (P : PredefinedPolicyType) (a : PolicyType) {errMsg : Bytes}
    (h : errMsg ∈ [AgentErrorMsg.Error, AgentErrorMsg.Timeout]) :
    dataToAnswer P (answerToData a errMsg) = .ok P.DENY := by
  simp only [List.mem_cons, List.not_mem_nil, or_false] at h
  have hne : errMsg ≠ [] := by rintro rfl; revert h; decide
  simp only [answerToData, if_neg hne, dataToAnswer, if_pos h]

/-- The answer format at one number: what is in range is printed and read back, what is out of
range is refused, and the error texts stand for a refusal. -/
def AnswerFormat (P : PredefinedPolicyType) (z : ℤ) : Prop :=
  (0 ≤ z ∧ z ≤ maxPolicyType →
    answerToData (UInt16.ofInt z) AgentErrorMsg.NoError = intNumeral z ∧
      ∃ a, dataToAnswer P (intNumeral z) = .ok a ∧ (a.toNat : ℤ) = z) ∧
  (¬ (0 ≤ z ∧ z ≤ maxPolicyType) → ∃ e, dataToAnswer P (intNumeral z) = .error e) ∧
  ∀ answer, ∀ errMsg ∈ [AgentErrorMsg.Error, AgentErrorMsg.Timeout],
    dataToAnswer P (answerToData answer errMsg) = .ok P.DENY

/-- **The answer format is respected exactly by the numbers that are not negative 64-bit
numbers**: below zero the comparison with the maximum guards nothing. -/
theorem answerFormat_iff (P : PredefinedPolicyType) (z : ℤ) :
    AnswerFormat P z ↔ z < -2 ^ 63 ∨ 0 ≤ z := by
  have hcast : 0 ≤ z ∧ z ≤ maxPolicyType → ((UInt16.ofInt z).toNat : ℤ) = z := by
    intro hz
    rw [ofInt_toNat]
    simp only [maxPolicyType] at hz
    omega
  constructor
  · rintro ⟨-, hout, -⟩
    by_contra hz
    obtain ⟨e, he⟩ := hout (by omega)
    rcases dataToAnswer_intNumeral P z with ⟨-, h⟩ | ⟨h, -⟩
    · simp only [maxPolicyType] at h
      omega
    · rw [h] at he
      exact absurd he (by simp)
  · intro hz
    refine ⟨fun hr => ⟨?_, ?_⟩, fun hr => ?_, fun a errMsg => dataToAnswer_errMsg P a⟩
    · rw [answerToData_noError, hcast hr]
    · rcases dataToAnswer_intNumeral P z with ⟨-, h⟩ | ⟨h, -⟩
      · omega
      · exact ⟨_, h, hcast hr⟩
    · rcases dataToAnswer_intNumeral P z with ⟨h, -⟩ | ⟨-, h⟩
      · exact h
      · omega

/-- The answer `-1` is read as the predefined `ALLOW` of cynara. -/
theorem answerFormat_neg_one :
    dataToAnswer .cynara (intNumeral (-1)) = .ok PredefinedPolicyType.cynara.ALLOW ∧
      ¬ AnswerFormat .cynara (-1) := by
  have h : dataToAnswer .cynara (intNumeral (-1)) = .ok PredefinedPolicyType.cynara.ALLOW := by
    decide +kernel
  refine ⟨h, fun ⟨_, hout, _⟩ => ?_⟩
  obtain ⟨e, he⟩ := hout (by decide)
  rw [h] at he
  exact absurd he (by simp)

end Translator

end AskUser
