import AskUser.MainSteps
import AskUser.RequestFormat

/-!
# Malformed requests

The data of a request comes from outside, and `dataToRequest` builds a buffer of any length that it
reads there. `Handled` is what `processCynaraRequest` should do with a new Action whatever its data
are; `handled_iff` says that it does so unless a length is above the limit of a container, where an
exception leaves the function and `run`.
-/

namespace AskUser.Agent
open RequestType ByteText Translator Fallible

/-- `processCynaraRequest` returns, and the Action at `p` is recorded in both maps, or one error
response was sent about it. Nothing else is sent, and no other entry is changed. -/
def Handled (L : Limits) (c : Choice) (s : Agent) (p : RequestPtr) (r : Request) : Prop :=
  ∃ s', processCynaraRequest L c p s = .ok () s' ∧
    ((s'.store.requests.lookup r.id = some p ∧ (s'.dialogs.UIs.lookup r.id).isSome ∧
        responses (s'.store.story p) = responses (s.store.story p)) ∨
      (s'.store.requests.lookup r.id = none ∧ s'.dialogs.UIs.lookup r.id = none ∧
        responses (s'.store.story p) = responses (s.store.story p) ++
          [⟨RT_Action, r.id, AgentErrorMsg.Error, .startFailure⟩])) ∧
    (∀ q ≠ p, s'.store.story q = s.store.story q) ∧
    ∀ i ≠ r.id, s'.store.requests.lookup i = s.store.requests.lookup i ∧
      s'.dialogs.UIs.lookup i = s.dialogs.UIs.lookup i

variable {L : Limits} {c : Choice} {s : Agent} {p : RequestPtr} {r : Request}

/-- The dialog could not be started: one error response. -/
theorem handled_of_fails (hp : s.store.objects.cell p = some r) (haction : r.type = RT_Action)
    (hl : s.store.requests.lookup r.id = none) (hu : s.dialogs.UIs.lookup r.id = none)
    {d : RequestData} (hd : Translator.Agent.dataToRequest L c.strSize r.data = .ok d)
    (hc : c.createUI = false) : Handled L c s p r := by
  refine ⟨_, processCynaraRequest_fails hp haction hl hd hc, Or.inr ⟨hl, hu, ?_⟩, fun q hq => ?_,
    fun i _ => ⟨rfl, rfl⟩⟩
  · simp [responses, startFailure, Translator.Agent.answerToData, AgentErrorMsg.Error]
  · simp [hq]

/-- The dialog is started: the request is recorded. -/
theorem handled_of_starts (hp : s.store.objects.cell p = some r) (haction : r.type = RT_Action)
    (hl : s.store.requests.lookup r.id = none) (hu : s.dialogs.UIs.lookup r.id = none)
    {d : RequestData} (hd : Translator.Agent.dataToRequest L c.strSize r.data = .ok d)
    (hc : c.createUI = true) : Handled L c s p r := by
  refine ⟨_, processCynaraRequest_records hp haction hl hd hc hu, Or.inl ⟨?_, ?_, ?_⟩,
    fun q hq => ?_, fun i hi => ⟨?_, ?_⟩⟩
  · rw [Requests.lookup_insert hl, if_pos rfl]
  · show ((s.dialogs.UIs.insert r.id _).lookup r.id).isSome
    rw [AList.lookup_insert]
    rfl
  · simp [Requests.story_insert hl, responses]
  · rw [Requests.story_insert hl, if_neg hq]
  · rw [Requests.lookup_insert hl, if_neg hi]
  · exact AList.lookup_insert_ne hi

/-- **Malformed requests.** Whatever the state and the data, a new Action whose id has no dialog is
handled if and only if no exception leaves the decoder: its data must not announce a length that no
container can have. -/
theorem handled_iff (hp : s.store.objects.cell p = some r) (haction : r.type = RT_Action)
    (hl : s.store.requests.lookup r.id = none) (hu : s.dialogs.UIs.lookup r.id = none) :
    Handled L c s p r ↔ ¬ Undecodable L c.strSize r.data := by
  rw [← dataToRequest_error_iff]
  cases hd : Translator.Agent.dataToRequest L c.strSize r.data with
  | error e =>
    refine iff_of_false ?_ fun hno => hno ⟨e, rfl⟩
    rintro ⟨s', hs', -⟩
    rw [processCynaraRequest_throws hp haction hl hd] at hs'
    exact absurd hs' (by simp)
  | ok d =>
    refine iff_of_true ?_ (by simp)
    cases hc : c.createUI with
    | false => exact handled_of_fails hp haction hl hu hd hc
    | true => exact handled_of_starts hp haction hl hu hd hc

/-- The data `-1`: the length is read as the largest `size_t`. -/
def minusOne : PluginData := [byte '-', byte '1']

/-- A new agent that has popped an Action. -/
def popRun (data : PluginData) : List Label :=
  [tick, .talker (.initialized true), .talker (.received .ACTION 1 data), tick, tick, tick]

theorem handled_question : ∃ s, Reachable .lp64 Disciplined s ∧ s.pc = .request 0 ∧
    Handled .lp64 ⟨0, 0, true⟩ s 0 ⟨RT_Action, 1, question⟩ := by
  obtain ⟨s, hs, hst⟩ : ∃ s, Reachable .lp64 Disciplined s ∧
      (s.pc, s.store.objects.cell 0, s.store.requests.lookup 1, s.dialogs.UIs.lookup 1) =
        (.request 0, some ⟨RT_Action, 1, question⟩, none, none) :=
    Run.Reachable.exists_of_exec (popRun question) (by decide +kernel)
  simp only [Prod.mk.injEq] at hst
  obtain ⟨hpc, hp, hl, hu⟩ := hst
  refine ⟨s, hs, hpc, (handled_iff (c := ⟨0, 0, true⟩) hp rfl hl hu).2 fun hundec => ?_⟩
  obtain ⟨e, he⟩ := (dataToRequest_error_iff .lp64 0 question).2 hundec
  have hd : Translator.Agent.dataToRequest .lp64 0 question = .ok ⟨[], [], []⟩ := by
    decide +kernel
  rw [hd] at he
  exact absurd he (by simp)

/-- A request with the data `-1` is not handled: it ends `run` with an exception. -/
theorem not_handled_minusOne : ∃ s, Reachable .lp64 Disciplined s ∧ s.pc = .request 0 ∧
    s.store.objects.cell 0 = some ⟨RT_Action, 1, minusOne⟩ ∧
    s.store.requests.lookup 1 = none ∧ s.dialogs.UIs.lookup 1 = none ∧
    ¬ Handled .lp64 ⟨0, 0, true⟩ s 0 ⟨RT_Action, 1, minusOne⟩ ∧
    (mainStep .lp64 ⟨0, 0, true⟩ s).exception = some .length_error := by
  obtain ⟨s, hs, hst⟩ : ∃ s, Reachable .lp64 Disciplined s ∧
      (s.pc, s.store.objects.cell 0, s.store.requests.lookup 1, s.dialogs.UIs.lookup 1) =
        (.request 0, some ⟨RT_Action, 1, minusOne⟩, none, none) :=
    Run.Reachable.exists_of_exec (popRun minusOne) (by decide +kernel)
  simp only [Prod.mk.injEq] at hst
  obtain ⟨hpc, hp, hl, hu⟩ := hst
  have hd : Translator.Agent.dataToRequest .lp64 0 minusOne = .error .length_error := by
    decide +kernel
  have hthrows := processCynaraRequest_throws (c := ⟨0, 0, true⟩) hp rfl hl hd
  refine ⟨s, hs, hpc, hp, hl, hu, ?_, ?_⟩
  · rintro ⟨s', hs', -⟩
    rw [hthrows] at hs'
    exact absurd hs' (by simp)
  · simp only [mainStep, hpc, call]
    rw [bind_ok (request_run hp), if_neg (by simp), bind_error hthrows]
    rfl

end AskUser.Agent
