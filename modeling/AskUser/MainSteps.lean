import AskUser.DialogLife
import AskUser.Ownership

/-!
# What the main thread can do

The invariant of the agent (`Inv`) puts the agreement of the request containers with the stories
(`Requests.Owned`) next to that of the dialogs (`Dialogs.Wired`). Where it holds, a step of the main
thread does one of the things that `MainStep` lists (`mainStep_cases`): in particular it never uses
or deletes a deleted object, and never joins a thread twice. It can still call `std::terminate`, in
the case `MainStep.clashed` and only there.
-/

namespace AskUser.Agent
open RequestType Objects Fallible

/-! ### Starting a dialog -/

section Start

variable {L : Limits} {c : Choice} {s : Agent} {p : RequestPtr} {r : Request}

theorem request_run (hp : s.store.objects.cell p = some r) : request p s = .ok r s := by
  simp [request, hp]

theorem delete_run (hp : s.store.objects.cell p = some r) :
    delete p s = .ok () { s with store := s.store.free p } := by
  simp [delete, hp]

theorem dialog_alloc (ui : AskUINotificationBackend) :
    dialog s.dialogs.objects.size { s with dialogs := s.dialogs.alloc ui } =
      .ok ui { s with dialogs := s.dialogs.alloc ui } :=
  dialog_run (by simp [Dialogs.alloc])

theorem startUIForRequest_throws (hp : s.store.objects.cell p = some r) {e : StdException}
    (hd : Translator.Agent.dataToRequest L c.strSize r.data = .error e) :
    startUIForRequest L c p s = .error (.exception e) s := by
  unfold startUIForRequest
  rw [bind_ok (request_run hp), hd]
  rfl

theorem startUIForRequest_fails (hp : s.store.objects.cell p = some r) {d : RequestData}
    (hd : Translator.Agent.dataToRequest L c.strSize r.data = .ok d) (hc : c.createUI = false) :
    startUIForRequest L c p s = .ok false { s with dialogs := s.dialogs.discard c } := by
  unfold startUIForRequest
  rw [bind_ok (request_run hp), hd]
  simp only
  rw [get_bind, onDialogs_bind, bind_ok (dialog_alloc _)]
  simp [AskUINotificationBackend.start, hc, destroy, Dialogs.alloc, bind, EStateM.bind, pure,
    EStateM.pure, AskUINotificationBackend.joinable, AskUINotificationBackend.new,
    Dialogs.discard]

theorem startUIForRequest_starts (hp : s.store.objects.cell p = some r) {d : RequestData}
    (hd : Translator.Agent.dataToRequest L c.strSize r.data = .ok d) (hc : c.createUI = true)
    (hn : s.dialogs.UIs.lookup r.id = none) :
    startUIForRequest L c p s = .ok true
      { s with dialogs := s.dialogs.opened c r.id p } := by
  unfold startUIForRequest
  rw [bind_ok (request_run hp), hd]
  simp only
  rw [get_bind, onDialogs_bind, bind_ok (dialog_alloc _)]
  simp only [AskUINotificationBackend.start, hc, if_true]
  rw [onDialogs_bind, get_bind]
  simp only [Dialogs.note, Dialogs.put, Dialogs.alloc, hn]
  rfl

theorem startUIForRequest_clashes (hp : s.store.objects.cell p = some r) {d : RequestData}
    (hd : Translator.Agent.dataToRequest L c.strSize r.data = .ok d) (hc : c.createUI = true)
    {u : UIPtr} (hu : s.dialogs.UIs.lookup r.id = some u) :
    startUIForRequest L c p s = .error .terminate
      { s with dialogs := (s.dialogs.start c r.id p).free s.dialogs.objects.size } := by
  unfold startUIForRequest
  rw [bind_ok (request_run hp), hd]
  simp only
  rw [get_bind, onDialogs_bind, bind_ok (dialog_alloc _)]
  simp only [AskUINotificationBackend.start, hc, if_true]
  rw [onDialogs_bind, get_bind]
  have hdestroy : destroy s.dialogs.objects.size { s with dialogs := s.dialogs.start c r.id p } =
      .error .terminate
        { s with dialogs := (s.dialogs.start c r.id p).free s.dialogs.objects.size } := by
    simp [destroy, AskUINotificationBackend.joinable, Dialogs.start, Dialogs.note, Dialogs.put,
      Dialogs.alloc]
  simp only [Dialogs.note, Dialogs.put, Dialogs.alloc, hu]
  exact bind_error hdestroy

end Start

/-! ### What a step of the main thread can do -/

/-- The request in the hands of the call in progress. -/
def Pc.current : Pc → Option RequestPtr
  | .request p => some p
  | _ => none

/-- The invariant: the containers agree with the stories, and what `finish` promises. -/
structure Inv (s : Agent) : Prop where
  running : ∀ a, s.pc ≠ .crashed a
  owned : s.store.Owned s.pc.current (s.exception.isSome) s.pc.isFinal
  wired : s.dialogs.Wired
  joins : s.talkerJoins = if s.talker = .joined then 1 else 0
  talker : s.talker = .joined → s.pc.isFinal
  finished : s.pc = .finished → s.talker = .joined ∧ s.store.incomingRequests = [] ∧
    (∀ i, s.store.requests.lookup i = none) ∧ ∀ i, s.dialogs.UIs.lookup i = none

/-- A move of the main thread that changes nothing else. -/
inductive Moves (s : Agent) : Pc → Pc → Prop
  | stop : s.stopFlag → Moves s .outer .stopped
  | wait : Moves s .outer .waiting
  | wakeToStop : s.stopFlag → Moves s .waiting .stopped
  | wake : Moves s .waiting .inner
  | leave : Moves s .inner .outer
  | onlyResponses : Moves s .inner .responses
  | noResponse : Moves s .responses .cleanup

/-- The steps of the main thread from a state where the invariant holds. -/
inductive MainStep (L : Limits) (c : Choice) (s : Agent) : Agent → Prop
  | start : s.pc = .start → MainStep L c s { s with talker := .initializing, pc := .outer }
  | moves {pc : Pc} : Moves s s.pc pc → MainStep L c s { s with pc := pc }
  | popped {p rest} : s.pc = .inner → s.store.incomingRequests = p :: rest →
      MainStep L c s { s with
        store := { s.store with incomingRequests := rest }.note p .popped, pc := .request p }
  | closed {p r} : s.pc = .request p → s.store.objects.cell p = some r → r.type = RT_Close →
      MainStep L c s { s with store := s.store.free p, stopFlag := true, pc := .outer }
  | cancelled {p q r d} : s.pc = .request p → s.store.objects.cell p = some r →
      r.type = RT_Cancel → s.store.requests.lookup r.id = some q → d.Wired →
      s.dialogs.Evolves d (fun ui => ui.requestId = r.id) →
      MainStep L c s { s with
        store := (((s.store.free q).erase r.id).note q (.sent ⟨r.type, r.id, [], .cancel p⟩)).free p
        dialogs := d, pc := .responses }
  | duplicate {p q r} : s.pc = .request p → s.store.objects.cell p = some r →
      r.type = RT_Action → s.store.requests.lookup r.id = some q →
      MainStep L c s { s with
        store := (s.store.note p (.duplicate q)).free p, pc := .responses }
  | unknownCancel {p r} : s.pc = .request p → s.store.objects.cell p = some r →
      r.type = RT_Cancel → s.store.requests.lookup r.id = none →
      MainStep L c s { s with store := s.store.free p, pc := .responses }
  | thrown {p r e} : s.pc = .request p → s.store.objects.cell p = some r →
      r.type = RT_Action → s.store.requests.lookup r.id = none →
      Translator.Agent.dataToRequest L c.strSize r.data = .error e →
      MainStep L c s { s with
        store := (s.store.note p (.thrown e)).free p, exception := some e, pc := .stopped }
  | startFailed {p r d} : s.pc = .request p → s.store.objects.cell p = some r →
      r.type = RT_Action → s.store.requests.lookup r.id = none →
      Translator.Agent.dataToRequest L c.strSize r.data = .ok d → c.createUI = false →
      MainStep L c s { s with
        store := ((s.store.note p .startFailed).note p (.sent (startFailure r))).free p
        dialogs := s.dialogs.discard c, pc := .responses }
  | clashed {p r d u} : s.pc = .request p → s.store.objects.cell p = some r →
      r.type = RT_Action → s.store.requests.lookup r.id = none →
      Translator.Agent.dataToRequest L c.strSize r.data = .ok d → c.createUI = true →
      s.dialogs.UIs.lookup r.id = some u →
      MainStep L c s { s with
        dialogs := (s.dialogs.start c r.id p).free s.dialogs.objects.size
        pc := .crashed .terminate }
  | recorded {p r d} : s.pc = .request p → s.store.objects.cell p = some r →
      r.type = RT_Action → s.store.requests.lookup r.id = none →
      Translator.Agent.dataToRequest L c.strSize r.data = .ok d → c.createUI = true →
      s.dialogs.UIs.lookup r.id = none →
      MainStep L c s { s with
        store := s.store.insert r.id p
        dialogs := s.dialogs.opened c r.id p
        pc := .responses }
  | poppedResponse {q rest} : s.pc = .responses → s.incomingResponses = q :: rest →
      MainStep L c s { s with
        incomingResponses := rest
        answers := s.answers.note q.postedBy (.popped q)
        pc := .response q }
  | answered {q p r d} : s.pc = .response q → s.store.requests.lookup q.id = some p →
      s.store.objects.cell p = some r → r.id = q.id → d.Wired →
      s.dialogs.Evolves d (fun ui => ui.requestId = q.id) →
      MainStep L c s { s with
        store := ((s.store.note p (.sent (answer r q))).free p).erase q.id
        dialogs := d, pc := .cleanup }
  | unmatched {q d} : s.pc = .response q → s.store.requests.lookup q.id = none → d.Wired →
      s.dialogs.Evolves d (fun ui => ui.requestId = q.id) →
      MainStep L c s { s with dialogs := d, pc := .cleanup }
  | cleaned {d} : s.pc = .cleanup → d.Wired → s.dialogs.Evolves d (fun ui => ui.dismissing) →
      MainStep L c s { s with dialogs := d, pc := .inner }
  | exited (s' : Agent) : s.pc = .stopped → Inv { s' with pc := .exited } →
      s'.exception = s.exception →
      (∀ p x, .sent x ∈ s'.store.story p → .sent x ∈ s.store.story p) →
      s.dialogs.Evolves s'.dialogs (fun ui => ui.dismissing) →
      MainStep L c s { s' with pc := .exited }
  | finished (s' : Agent) : s.pc = .stopped → Inv { s' with pc := .finished } →
      s'.exception = s.exception →
      (∀ p x, .sent x ∈ s'.store.story p → .sent x ∈ s.store.story p) →
      s.dialogs.Evolves s'.dialogs (fun ui => ui.dismissing) →
      MainStep L c s { s' with pc := .finished }

variable {L : Limits} {c : Choice} {s : Agent} {p : RequestPtr} {r : Request}

/-! ### Processing -/

section Scope

variable {scope : AgentM Bool} {s₁ : Agent}

theorem withUniquePtr_released (h : scope s = .ok true s₁) :
    withUniquePtr p scope s = .ok () s₁ := by
  simp [withUniquePtr, h]

theorem withUniquePtr_deletes (s₁ : Agent) (h : scope s = .ok false s₁)
    (hp : s₁.store.objects.cell p = some r) :
    withUniquePtr p scope s = .ok () { s₁ with store := s₁.store.free p } := by
  simp [withUniquePtr, h, delete_run hp]

theorem withUniquePtr_throws {e : StdException} (h : scope s = .error (.exception e) s₁)
    (hp : s₁.store.objects.cell p = some r) :
    withUniquePtr p scope s =
      .error (.exception e) { s₁ with store := (s₁.store.note p (.thrown e)).free p } := by
  have hp' : ({ s₁ with store := s₁.store.note p (.thrown e) } : Agent).store.objects.cell p =
    some r := hp
  simp [withUniquePtr, h, onRequests, delete_run hp']

theorem withUniquePtr_terminates (h : scope s = .error .terminate s₁) :
    withUniquePtr p scope s = .error .terminate s₁ := by
  simp [withUniquePtr, h]

end Scope

/-- The scope of `processCynaraRequest` for an Action whose id is not in `m_requests`. -/
theorem processCynaraRequest_action (hp : s.store.objects.cell p = some r)
    (haction : r.type = RT_Action) (hl : s.store.requests.lookup r.id = none) :
    processCynaraRequest L c p s = withUniquePtr p (do
      if ← startUIForRequest L c p then
        onRequests fun b => b.insert r.id p
        return true
      else
        onRequests fun b => b.note p .startFailed
        sendResponse p RT_Action r.id (Translator.Agent.answerToData 0 AgentErrorMsg.Error)
          .startFailure
        return false) s := by
  unfold processCynaraRequest withUniquePtr
  rw [bind_ok (request_run hp), get_bind]
  simp only [hl, haction, reduceCtorEq, if_false]

theorem processCynaraRequest_throws (hp : s.store.objects.cell p = some r)
    (haction : r.type = RT_Action) (hl : s.store.requests.lookup r.id = none) {e : StdException}
    (hd : Translator.Agent.dataToRequest L c.strSize r.data = .error e) :
    processCynaraRequest L c p s =
      .error (.exception e) { s with store := (s.store.note p (.thrown e)).free p } := by
  rw [processCynaraRequest_action hp haction hl]
  exact withUniquePtr_throws (bind_error (startUIForRequest_throws hp hd)) hp

theorem processCynaraRequest_fails (hp : s.store.objects.cell p = some r)
    (haction : r.type = RT_Action) (hl : s.store.requests.lookup r.id = none) {d : RequestData}
    (hd : Translator.Agent.dataToRequest L c.strSize r.data = .ok d) (hc : c.createUI = false) :
    processCynaraRequest L c p s = .ok () { s with
      store := ((s.store.note p .startFailed).note p (.sent (startFailure r))).free p
      dialogs := s.dialogs.discard c } := by
  rw [processCynaraRequest_action hp haction hl]
  refine withUniquePtr_deletes (r := r) { s with
    store := (s.store.note p .startFailed).note p (.sent (startFailure r)),
    dialogs := s.dialogs.discard c } ?_ hp
  rw [bind_ok (startUIForRequest_fails hp hd hc)]
  rfl

theorem processCynaraRequest_clashes (hp : s.store.objects.cell p = some r)
    (haction : r.type = RT_Action) (hl : s.store.requests.lookup r.id = none) {d : RequestData}
    (hd : Translator.Agent.dataToRequest L c.strSize r.data = .ok d) (hc : c.createUI = true)
    {u : UIPtr} (hu : s.dialogs.UIs.lookup r.id = some u) :
    processCynaraRequest L c p s = .error .terminate { s with
      dialogs := (s.dialogs.start c r.id p).free s.dialogs.objects.size } := by
  rw [processCynaraRequest_action hp haction hl]
  exact withUniquePtr_terminates (bind_error (startUIForRequest_clashes hp hd hc hu))

theorem processCynaraRequest_records (hp : s.store.objects.cell p = some r)
    (haction : r.type = RT_Action) (hl : s.store.requests.lookup r.id = none) {d : RequestData}
    (hd : Translator.Agent.dataToRequest L c.strSize r.data = .ok d) (hc : c.createUI = true)
    (hu : s.dialogs.UIs.lookup r.id = none) :
    processCynaraRequest L c p s = .ok () { s with
      store := s.store.insert r.id p
      dialogs := s.dialogs.opened c r.id p } := by
  rw [processCynaraRequest_action hp haction hl]
  refine withUniquePtr_released ?_
  rw [bind_ok (startUIForRequest_starts hp hd hc hu)]
  rfl

/-- A request in `m_requests` is live, and not the one that the call in progress holds. -/
theorem Inv.pending_live (h : Inv s) {i : RequestId} {q : RequestPtr}
    (hq : s.store.requests.lookup i = some q) :
    ∃ r, s.store.objects.cell q = some r ∧ r.id = i ∧ r.type = RT_Action ∧
      s.store.story q = [.handed r, .popped, .recorded] ∧ s.pc.current ≠ some q := by
  obtain ⟨r, hr, hid⟩ := h.owned.pending.1 hq
  exact ⟨r, h.owned.live.2 ⟨_, hr⟩, hid, hr.of_pending.1, hr.of_pending.2,
    h.owned.not_processing hr (by simp)⟩

/-- `processCynaraRequest`, where the containers agree with the stories. -/
theorem processCynaraRequest_cases (h : Inv s) (hpc : s.pc = .request p)
    (hp : s.store.objects.cell p = some r) (hclose : r.type ≠ RT_Close) :
    MainStep L c s (resume ((processCynaraRequest L c p >>= fun _ => pure .responses) s)) := by
  cases hl : s.store.requests.lookup r.id with
  | some q =>
    unfold processCynaraRequest
    obtain ⟨rq, hq, hid, -, -, hne⟩ := h.pending_live hl
    -- the request that is deleted is not the one whose type is read after that
    have hqp : p ≠ q := fun he => hne (by rw [hpc, he]; rfl)
    by_cases hcancel : r.type = RT_Cancel
    · obtain ⟨d, hdismiss, hd, hev⟩ := dismissUI_spec (s := { s with
        store := ((s.store.free q).erase r.id).note q (.sent ⟨r.type, r.id, [], .cancel p⟩) })
        h.wired r.id
      have hp' : ((s.store.free q).erase r.id).objects.cell p = some r := by
        simpa [hqp] using hp
      rw [bind_ok (withUniquePtr_deletes (r := r) { s with
        store := ((s.store.free q).erase r.id).note q (.sent ⟨r.type, r.id, [], .cancel p⟩),
        dialogs := d } ?_ hp')]
      · exact .cancelled hpc hp hcancel hl hd hev
      · rw [bind_ok (request_run hp), get_bind]
        simp only [hl, if_pos hcancel]
        rw [bind_ok (delete_run hq), onRequests_bind, bind_ok (request_run hp'), sendResponse,
          onRequests_bind, bind_ok hdismiss]
        rfl
    · have haction : r.type = RT_Action := by
        cases ht : r.type <;> simp_all
      rw [bind_ok (withUniquePtr_deletes (r := r) { s with
        store := s.store.note p (.duplicate q) } ?_ hp)]
      · exact .duplicate hpc hp haction hl
      · rw [bind_ok (request_run hp), get_bind]
        simp only [hl, if_neg hcancel]
        rfl
  | none =>
    by_cases hcancel : r.type = RT_Cancel
    · unfold processCynaraRequest
      rw [bind_ok (withUniquePtr_deletes (r := r) s ?_ hp)]
      · exact .unknownCancel hpc hp hcancel hl
      · rw [bind_ok (request_run hp), get_bind]
        simp only [hl, if_pos hcancel]
        rfl
    · have haction : r.type = RT_Action := by
        cases ht : r.type <;> simp_all
      cases hd : Translator.Agent.dataToRequest L c.strSize r.data with
      | error e =>
        rw [bind_error (processCynaraRequest_throws hp haction hl hd)]
        exact .thrown hpc hp haction hl hd
      | ok d =>
        cases hc : c.createUI with
        | false =>
          rw [bind_ok (processCynaraRequest_fails hp haction hl hd hc)]
          exact .startFailed hpc hp haction hl hd hc
        | true =>
          cases hu : s.dialogs.UIs.lookup r.id with
          | some u =>
            rw [bind_error (processCynaraRequest_clashes hp haction hl hd hc hu)]
            exact .clashed hpc hp haction hl hd hc hu
          | none =>
            rw [bind_ok (processCynaraRequest_records hp haction hl hd hc hu)]
            exact .recorded hpc hp haction hl hd hc hu

/-- `processUIResponse` for a request in `m_requests`. -/
theorem processUIResponse_answers (h : Inv s) {q : Response}
    (hl : s.store.requests.lookup q.id = some p) (hp : s.store.objects.cell p = some r) :
    ∃ d, processUIResponse q s = .ok () { s with
        store := ((s.store.note p (.sent (answer r q))).free p).erase q.id, dialogs := d } ∧
      d.Wired ∧ s.dialogs.Evolves d fun ui => ui.requestId = q.id := by
  obtain ⟨d, hdismiss, hd, hev⟩ := dismissUI_spec (s := { s with
    store := ((s.store.note p (.sent (answer r q))).free p).erase q.id }) h.wired q.id
  refine ⟨d, ?_, hd, hev⟩
  unfold processUIResponse
  rw [get_bind]
  simp only [hl]
  rw [bind_ok (request_run hp), sendResponse, onRequests_bind]
  have hp' : ({ s with store := s.store.note p (.sent (answer r q)) } : Agent).store.objects.cell
    p = some r := hp
  exact (bind_ok (delete_run hp')).trans hdismiss

theorem processUIResponse_unmatched (h : Inv s) {q : Response}
    (hl : s.store.requests.lookup q.id = none) :
    ∃ d, processUIResponse q s = .ok () { s with dialogs := d } ∧
      d.Wired ∧ s.dialogs.Evolves d fun ui => ui.requestId = q.id := by
  unfold processUIResponse
  rw [get_bind]
  simp only [hl]
  exact dismissUI_spec h.wired q.id

/-- `processUIResponse`, where the containers agree with the stories. -/
theorem processUIResponse_cases (h : Inv s) {q : Response} (hpc : s.pc = .response q) :
    MainStep L c s (resume ((processUIResponse q >>= fun _ => pure .cleanup) s)) := by
  cases hl : s.store.requests.lookup q.id with
  | some p =>
    obtain ⟨r, hp, hid, -⟩ := h.pending_live hl
    obtain ⟨d, hrun, hd, hev⟩ := processUIResponse_answers h hl hp
    rw [bind_ok hrun]
    exact .answered hpc hl hp hid hd hev
  | none =>
    obtain ⟨d, hrun, hd, hev⟩ := processUIResponse_unmatched h hl
    rw [bind_ok hrun]
    exact .unmatched hpc hl hd hev

/-! ### Shutdown -/

theorem drainRequests_spec (ps : List RequestPtr) {exc : Prop}
    (ho : s.store.Owned none exc True) (hps : s.store.incomingRequests = ps) :
    ∃ b : Requests, drainRequests ps s = .ok () { s with store := b } ∧ b.Owned none exc True ∧
      b.incomingRequests = [] ∧
      ∀ p x, .sent x ∈ b.story p → .sent x ∈ s.store.story p := by
  induction ps generalizing s with
  | nil => exact ⟨s.store, rfl, ho, hps, fun _ _ => id⟩
  | cons p ps ih =>
    obtain ⟨r, hr⟩ := ho.queued.1 (hps ▸ List.mem_cons_self : p ∈ s.store.incomingRequests)
    have hcell := ho.live.2 ⟨_, hr⟩
    have hst := hr.of_queued
    have hnodup := ho.nodup
    rw [hps, List.nodup_cons] at hnodup
    let b : Requests := { s.store with incomingRequests := ps }.free p
    have hstory : ∀ q, b.story q = if q = p then [.handed r, .deleted] else s.store.story q := by
      intro q
      have hfree : b.story q =
          if q = p then s.store.story q ++ [.deleted] else s.store.story q := Requests.story_free
      rw [hfree]
      split_ifs with hq
      · rw [hq]
        exact congrArg (· ++ [.deleted]) hst
      · rfl
    have hb : b.Owned none exc True := by
      refine ho.dispose hcell (.drained trivial) rfl hstory ?_ (by simp) fun i q => ?_
      · rw [hps, List.filter_cons_of_neg (by simp)]
        exact (List.filter_eq_self.2 fun a ha => by
          simpa using fun he : a = p => hnodup.1 (he ▸ ha)).symm
      · refine ⟨fun hq => ⟨hq, ?_⟩, fun hq => hq.1⟩
        rintro rfl
        exact ho.not_pending hr (by simp) i hq
    obtain ⟨b', hrun, hb', hempty, hsent⟩ := ih (s := { s with store := b }) hb rfl
    refine ⟨b', ?_, hb', hempty, fun q x hx => ?_⟩
    · have hdelete : delete p { s with store := { s.store with incomingRequests := ps } } =
          .ok () { s with store := b } := delete_run hcell
      unfold drainRequests
      rw [onRequests_bind]
      exact (bind_ok hdelete).trans hrun
    · have := hsent q x hx
      rw [hstory] at this
      split_ifs at this
      · simp at this
      · exact this

theorem deleteRequests_spec (es : List (Sigma fun _ : RequestId => RequestPtr)) {exc : Prop}
    (ho : s.store.Owned none exc True) (hes : s.store.requests.entries = es) :
    ∃ b : Requests, deleteRequests es s = .ok () { s with store := b } ∧ b.Owned none exc True ∧
      b.incomingRequests = s.store.incomingRequests ∧ (∀ i, b.requests.lookup i = none) ∧
      ∀ p x, .sent x ∈ b.story p → .sent x ∈ s.store.story p := by
  induction es generalizing s with
  | nil =>
    refine ⟨s.store, rfl, ho, rfl, fun i => ?_, fun _ _ => id⟩
    rw [AList.lookup, hes]
    rfl
  | cons e es ih =>
    obtain ⟨id, p⟩ := e
    have hl : s.store.requests.lookup id = some p := AList.mem_lookup_iff.2 (by simp [hes])
    obtain ⟨r, hr, -⟩ := ho.pending.1 hl
    have hcell := ho.live.2 ⟨_, hr⟩
    let b : Requests := (s.store.free p).erase id
    have hstory : ∀ q, b.story q =
        if q = p then s.store.story q ++ [.deleted] else s.store.story q :=
      fun q => Requests.story_free
    have hb : b.Owned none exc True :=
      ho.settle hl hcell _ (.shutDown trivial hr.of_pending.1) rfl hstory rfl rfl
    have hentries : b.requests.entries = es := by
      show s.store.requests.entries.kerase id = es
      rw [hes]
      exact List.kerase_cons_eq rfl
    obtain ⟨b', hrun, hb', hqueue, hempty, hsent⟩ := ih (s := { s with store := b }) hb hentries
    refine ⟨b', ?_, hb', hqueue, hempty, fun q x hx => ?_⟩
    · unfold deleteRequests
      rw [bind_ok (delete_run hcell), onRequests_bind]
      exact hrun
    · have := hsent q x hx
      rw [hstory] at this
      split_ifs at this with hq
      · simpa [hq] using this
      · exact this

/-- `finish`: it leaves everything deleted and joined, or calls `quick_exit` before that. -/
theorem finish_cases (h : Inv s) (hpc : s.pc = .stopped) :
    MainStep L c s (resume ((noexcept finish >>= fun b =>
      pure (if b then .finished else .exited)) s)) := by
  have hnot : s.talker ≠ .joined := fun hj => by simpa [hpc, Pc.isFinal] using h.talker hj
  have hjoins : s.talkerJoins = 0 := by simpa [hnot] using h.joins
  have ho : s.store.Owned none s.exception.isSome True := by
    have := h.owned
    rw [hpc] at this
    exact this.mono id fun _ => trivial
  by_cases ht : s.talker = .finished
  · let s₁ : Agent := { s with talker := .joined, talkerJoins := 1 }
    have hstop : stopTalker s = .ok true s₁ := by
      simp [stopTalker, ht, hjoins, s₁]
    obtain ⟨b₁, hdrain, hb₁, hqueue₁, hsent₁⟩ := drainRequests_spec (s := s₁) _ ho rfl
    obtain ⟨ret, d, hcleanup, hd, hev, hempty⟩ := cleanupUIThreads_spec
      (s := { s₁ with store := b₁ }) h.wired
    cases ret with
    | false =>
      -- a dialog is still there: `quick_exit` with `m_requests` as it is
      have hrun : noexcept finish s = .ok false { s₁ with store := b₁, dialogs := d } := by
        unfold noexcept finish
        rw [bind_ok hstop]
        simp only [Bool.not_true, Bool.false_eq_true, if_false]
        rw [get_bind, bind_ok hdrain, bind_ok hcleanup]
        rfl
      rw [bind_ok hrun]
      exact .exited { s₁ with store := b₁, dialogs := d } hpc
        ⟨by simp, hb₁.mono id fun _ => rfl, hd, rfl, fun _ => rfl, by simp⟩ rfl hsent₁ hev
    | true =>
      obtain ⟨b₂, hdelete, hb₂, hqueue₂, hnone₂, hsent₂⟩ := deleteRequests_spec
        (s := { s₁ with store := b₁, dialogs := d }) _ hb₁ rfl
      have hrun : noexcept finish s = .ok true { s₁ with store := b₂, dialogs := d } := by
        unfold noexcept finish
        rw [bind_ok hstop]
        simp only [Bool.not_true, Bool.false_eq_true, if_false]
        rw [get_bind, bind_ok hdrain, bind_ok hcleanup]
        simp only [Bool.not_true, Bool.false_eq_true, if_false]
        rw [get_bind, bind_ok hdelete]
        rfl
      rw [bind_ok hrun]
      exact .finished { s₁ with store := b₂, dialogs := d } hpc
        ⟨by simp, hb₂.mono id fun _ => rfl, hd, rfl, fun _ => rfl,
          fun _ => ⟨rfl, hqueue₂.trans hqueue₁, hnone₂, hempty rfl⟩⟩ rfl
        (fun p x hx => hsent₁ p x (hsent₂ p x hx)) hev
  · -- the promise of the talker's thread is not set: `quick_exit` before anything is deleted
    have hrun : noexcept finish s = .ok false s := by
      have hstop : stopTalker s = .ok false s := by
        cases hts : s.talker <;> simp_all [stopTalker]
      unfold noexcept finish
      rw [bind_ok hstop]
      rfl
    rw [bind_ok hrun]
    exact .exited s hpc
      ⟨by simp, ho.mono id fun _ => rfl, h.wired, h.joins, fun _ => rfl, by simp⟩ rfl
      (fun _ _ => id) (.refl _ _)

/-- **What a step of the main thread can do**, where the invariant holds. -/
theorem mainStep_cases (h : Inv s) (hpc : s.pc.isFinal = false) :
    MainStep L c s (mainStep L c s) := by
  unfold mainStep
  cases hs : s.pc with
  | finished | exited | crashed a => simp [hs, Pc.isFinal] at hpc
  | start => exact .start hs
  | outer =>
    simp only [call]
    rw [get_bind]
    by_cases hstop : s.stopFlag
    · rw [if_pos hstop]
      exact .moves (hs ▸ .stop hstop)
    · rw [if_neg hstop]
      exact .moves (hs ▸ .wait)
  | waiting =>
    simp only [call]
    rw [get_bind]
    by_cases hstop : s.stopFlag
    · rw [if_pos hstop]
      exact .moves (hs ▸ .wakeToStop hstop)
    · rw [if_neg hstop]
      exact .moves (hs ▸ .wake)
  | inner =>
    simp only [call]
    rw [get_bind]
    cases hq : s.store.incomingRequests with
    | cons p rest => exact .popped hs hq
    | nil =>
      simp only
      rw [get_bind]
      by_cases hr : s.incomingResponses = []
      · rw [if_pos hr]
        exact .moves (hs ▸ .leave)
      · rw [if_neg hr]
        exact .moves (hs ▸ .onlyResponses)
  | request p =>
    obtain ⟨r, hr⟩ := h.owned.processing.1 (by rw [hs]; rfl : s.pc.current = some p)
    have hp := h.owned.live.2 ⟨_, hr⟩
    simp only [call]
    rw [bind_ok (request_run hp)]
    by_cases hclose : r.type = RT_Close
    · rw [if_pos hclose, bind_ok (delete_run hp)]
      exact .closed hs hp hclose
    · rw [if_neg hclose]
      exact processCynaraRequest_cases h hs hp hclose
  | responses =>
    simp only [call]
    rw [get_bind]
    cases hq : s.incomingResponses with
    | cons q rest => exact .poppedResponse hs hq
    | nil => exact .moves (hs ▸ .noResponse)
  | response q => exact processUIResponse_cases h hs
  | cleanup =>
    obtain ⟨ret, d, hrun, hd, hev, -⟩ := cleanupUIThreads_spec h.wired
    simp only [call]
    rw [bind_ok hrun]
    exact .cleaned hs hd hev
  | stopped => exact finish_cases h hs

end AskUser.Agent
