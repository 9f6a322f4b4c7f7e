import AskUser.RequestFormat

/-!
# What the request decoder makes up

`dataToRequest` looks at no stream state, so after a failed operation it goes on: with the buffer
that it has filled with zeros, with the length of the round before, or with the length that was
never assigned. `NeverInvents` is what it should do instead; `neverInvents_iff` says for which data
it does so.

`buffers` follows the loop of `readMembers` for the buffers alone, each with the number of bytes
that the stream still has when it is built.
-/

namespace AskUser
open ByteText

namespace Translator
open AskUser.Translator.Agent

/-- The data starts with a block for each of these strings, one after the other. -/
def Framed (L : Limits) : PluginData → List Bytes → Prop
  | _, [] => True
  | data, payload :: payloads => ∃ rest, Block L data payload rest ∧ Framed L rest payloads

/-- The buffers that the loop builds: their lengths, and what is left to be read. -/
def buffers (L : Limits) : ℕ → IStream → ℕ → List (ℕ × ℕ)
  | 0, _, _ => []
  | k + 1, stream, strSize =>
    let (stream, strSize) := stream.extract L.sizeMax strSize
    if L.maxSize < strSize then []
    else
      let left := stream.rest.length
      let (_, stream) := stream.read 1
      let (_, stream) := stream.read strSize
      (strSize, left) :: buffers L k stream strSize

/-- What the decoder does where it does not invent anything: every request that it returns stands
in the data, no buffer is longer than what is left of them, and other data are reported. -/
structure NeverInvents (L : Limits) (garbage : ℕ) (data : PluginData) : Prop where
  framed : ∀ d, dataToRequest L garbage data = .ok d →
    Framed L data [d.client, d.user, d.privilege]
  buffers : ∀ b ∈ buffers L 3 ⟨data, false, false⟩ garbage, b.1 ≤ b.2
  reported : (¬ ∃ client user privilege, Framed L data [client, user, privilege]) →
    ∃ e, dataToRequest L garbage data = .error e

variable {L : Limits} {data payload rest : Bytes} {old : ℕ}

/-! ### Buffers -/

theorem length_fill {strSize : ℕ} {got : Bytes} (h : got.length ≤ strSize) :
    (fill strSize got).length = strSize := by
  rw [fill, List.length_append, List.length_replicate]
  omega

/-- The buffers are those that the members of the result are made of. -/
theorem buffers_of_ok {k : ℕ} {stream : IStream} {members : List Bytes}
    (h : readMembers L k stream old = .ok members) :
    (buffers L k stream old).map Prod.fst = members.map List.length := by
  induction k generalizing stream old members with
  | zero =>
    obtain rfl : [] = members := Except.ok.inj h
    rfl
  | succ k ih =>
    rw [readMembers_succ] at h
    unfold buffers
    by_cases hbig : L.maxSize < (stream.extract L.sizeMax old).2
    · rw [if_pos hbig] at h
      exact absurd h (by simp)
    · rw [if_neg hbig] at h
      simp only [hbig, if_false, List.map_cons]
      obtain ⟨members', hrest, rfl⟩ := (map_ok_iff ..).1 h
      rw [ih hrest, List.map_cons, length_fill (IStream.length_read_le ..)]

/-- A length that no container can have stops the loop before the buffer is built. -/
theorem buffers_of_oversized (k : ℕ) {stream : IStream}
    (h : L.maxSize < (stream.extract L.sizeMax old).2) : buffers L (k + 1) stream old = [] := by
  unfold buffers
  exact if_pos h

/-- The buffer of a block is filled from the data. -/
theorem buffers_block (k : ℕ) (h : Block L data payload rest) (hlen : payload.length ≤ L.maxSize) :
    buffers L (k + 1) ⟨data, false, false⟩ old =
      (payload.length, (payload ++ rest).length + 1) ::
        buffers L k ⟨rest, false, false⟩ payload.length := by
  obtain ⟨sep, hd, hle, hval, hrest⟩ := (block_iff ..).1 h
  rw [buffers, IStream.extract_numeral rfl hd]
  simp only [hval, hrest, List.isEmpty_cons, Nat.not_lt.mpr hle, decide_false,
    Nat.not_lt.mpr hlen, if_false]
  rw [IStream.read_le (n := 1) (by simp)]
  simp only [List.drop_succ_cons, List.drop_zero]
  rw [IStream.read_le (by simp)]
  simp only [List.drop_left', List.length_cons]

/-- Of a block that is too long for a container no buffer is built. -/
theorem buffers_long_block (k : ℕ) (h : Block L data payload rest)
    (hlen : L.maxSize < payload.length) : buffers L (k + 1) ⟨data, false, false⟩ old = [] := by
  obtain ⟨sep, hd, -, hval, -⟩ := (block_iff ..).1 h
  apply buffers_of_oversized
  rwa [IStream.extract_numeral rfl hd, hval]

/-- While the rounds read blocks, no buffer is longer than what is left. -/
theorem buffers_framed {payloads : List Bytes} (h : Framed L data payloads) :
    ∀ b ∈ buffers L payloads.length ⟨data, false, false⟩ old, b.1 ≤ b.2 := by
  induction payloads generalizing data old with
  | nil => simp [buffers]
  | cons payload payloads ih =>
    obtain ⟨rest, hblock, hrest⟩ := h
    by_cases hlen : payload.length ≤ L.maxSize
    · rw [List.length_cons, buffers_block _ hblock hlen, List.forall_mem_cons]
      refine ⟨?_, ih hrest⟩
      rw [List.length_append]
      omega
    · rw [List.length_cons, buffers_long_block _ hblock (Nat.not_le.1 hlen)]
      simp

/-- The same where the loop ends at an oversized length. -/
theorem buffers_oversized {k : ℕ} (h : Oversized L k data) :
    ∀ b ∈ buffers L k ⟨data, false, false⟩ old, b.1 ≤ b.2 := by
  induction k generalizing data old with
  | zero => exact h.elim
  | succ k ih =>
    rcases h with hnum | ⟨payload, rest, hblock, hlen, hrest⟩
    · obtain ⟨hd, hbig⟩ := (oversizedNumeral_iff L data).1 hnum
      rw [buffers_of_oversized k (by rwa [IStream.extract_numeral rfl hd])]
      simp
    · rw [buffers_block k hblock hlen, List.forall_mem_cons]
      refine ⟨?_, ih hrest⟩
      rw [List.length_append]
      omega

/-! ### Blocks -/

/-- The loop returns the blocks of framed data, or it meets one that is too long. -/
theorem readMembers_framed {payloads : List Bytes} (h : Framed L data payloads) (old : ℕ) :
    readMembers L payloads.length ⟨data, false, false⟩ old = .ok payloads ∨
      ∃ e, readMembers L payloads.length ⟨data, false, false⟩ old = .error e := by
  induction payloads generalizing data old with
  | nil => exact Or.inl rfl
  | cons payload payloads ih =>
    obtain ⟨rest, hblock, hrest⟩ := h
    by_cases hlen : payload.length ≤ L.maxSize
    · rw [List.length_cons, readMembers_block _ old hblock hlen]
      rcases ih hrest payload.length with hok | ⟨e, he⟩
      · left
        rw [hok]
        rfl
      · right
        exact ⟨e, by rw [he]; rfl⟩
    · right
      obtain ⟨sep, hd, -, hval, -⟩ := (block_iff ..).1 hblock
      rw [List.length_cons, readMembers_error_iff]
      refine Or.inl (Or.inl ((oversizedNumeral_iff L data).2 ⟨hd, ?_⟩))
      rw [hval]
      exact Nat.not_le.1 hlen

/-- What is returned for framed data stands in them. -/
theorem Framed.dataToRequest {client user privilege : Bytes} {garbage : ℕ} {d : RequestData}
    (h : Framed L data [client, user, privilege])
    (hd : Agent.dataToRequest L garbage data = .ok d) : d = ⟨client, user, privilege⟩ := by
  unfold Agent.dataToRequest at hd
  rcases readMembers_framed h garbage with hok | ⟨e, he⟩
  · rw [List.length_cons, List.length_cons, List.length_singleton] at hok
    rw [hok] at hd
    exact (Except.ok.inj hd).symm
  · rw [List.length_cons, List.length_cons, List.length_singleton] at he
    rw [he] at hd
    exact absurd hd (by simp)

/-- Nothing is invented where an exception leaves the decoder. -/
theorem neverInvents_of_undecodable {garbage : ℕ} (h : Undecodable L garbage data) :
    NeverInvents L garbage data := by
  obtain ⟨e, he⟩ := (dataToRequest_error_iff L garbage data).2 h
  refine ⟨fun d hd => ?_, ?_, fun _ => ⟨e, he⟩⟩
  · rw [he] at hd
    exact absurd hd (by simp)
  · rcases h with hover | ⟨hblank, hgarbage⟩
    · exact buffers_oversized hover
    · rw [blank_iff] at hblank
      rw [buffers_of_oversized 2 (by rwa [IStream.extract_blank hblank])]
      simp

/-- **The decoder invents nothing exactly where three complete blocks stand at the start of the
data, or an exception ends it** because one of the lengths is none that a container can have. -/
theorem neverInvents_iff (L : Limits) (garbage : ℕ) (data : PluginData) :
    NeverInvents L garbage data ↔
      (∃ client user privilege, Framed L data [client, user, privilege]) ∨
        Undecodable L garbage data := by
  constructor
  · intro h
    cases hd : Agent.dataToRequest L garbage data with
    | error e => exact Or.inr ((dataToRequest_error_iff L garbage data).1 ⟨e, hd⟩)
    | ok d => exact Or.inl ⟨_, _, _, h.framed d hd⟩
  · rintro (⟨client, user, privilege, hframed⟩ | hundecodable)
    · refine ⟨fun d hd => ?_, buffers_framed hframed, fun hno => absurd ⟨_, _, _, hframed⟩ hno⟩
      rw [hframed.dataToRequest hd]
      exact hframed
    · exact neverInvents_of_undecodable hundecodable

/-- A request that was cut off after the first two bytes of its client. -/
def cutOff : PluginData := [byte '3', byte ' ', byte 'a', byte 'b']

/-- It is returned as a request: the client is padded, and the user and the privilege are made of
zeros in the length that was left over. -/
theorem not_neverInvents_cutOff :
    Agent.dataToRequest .lp64 0 cutOff = .ok ⟨[byte 'a', byte 'b', 0], [0, 0, 0], [0, 0, 0]⟩ ∧
      ¬ NeverInvents .lp64 0 cutOff := by
  have hd : Agent.dataToRequest .lp64 0 cutOff =
      .ok ⟨[byte 'a', byte 'b', 0], [0, 0, 0], [0, 0, 0]⟩ := by decide +kernel
  refine ⟨hd, fun h => ?_⟩
  obtain ⟨rest, hblock, -⟩ := h.framed _ hd
  obtain ⟨sep, -, -, -, hrest⟩ := (block_iff ..).1 hblock
  have hscan : (scan (cutOff.dropWhile isSpace)).rest = [byte ' ', byte 'a', byte 'b'] := by
    decide
  rw [hscan] at hrest
  have := congrArg List.length hrest
  simp at this

end Translator

end AskUser
