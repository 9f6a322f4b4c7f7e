import AskUser.Attribution
import AskUser.Dismissal
import AskUser.RequestLife

/-!
# No pending request is forgotten

A request in `m_requests` is answered when the thread of its dialog has given its response and the
main thread has come to it. `Served` is the invariant: the request has a dialog that nobody has
dismissed, whose thread is still waiting for the user, or whose response the main thread has still
to process; and all other dialogs are dismissed, so that `cleanupUIThreads` gets rid of them once
they have finished.

There is one way out. The thread of a dialog catches an exception of its callback and ends, and the
request is then pending with nobody to answer it (`Threw`).

`Served` holds along every run (`served`), whatever ids cynara uses and also after an exception. So
an agent that has nothing left to do has answered everything but such requests (`quiescent`).
-/

namespace AskUser.Agent
open RequestType Objects

/-- The callback of the dialog has thrown. -/
def Threw (s : Agent) (u : UIPtr) : Prop := .threw ∈ s.answers.story u

instance (s : Agent) (u : UIPtr) : Decidable (s.Threw u) :=
  inferInstanceAs (Decidable (_ ∈ _))

/-- The dialog waits for its user, or its response about the id for the main thread; or there will
be none. -/
def Attended (s : Agent) (i : RequestId) (u : UIPtr) (ui : AskUINotificationBackend) : Prop :=
  ui.thread = .running ∨ (∃ q, s.Awaited q ∧ q.id = i ∧ q.postedBy = u) ∨ s.Threw u

/-- Each request in `m_requests` has a dialog that will see to it, unless its callback has thrown,
and every other dialog is dismissed. -/
structure Served (s : Agent) : Prop where
  pending : ∀ {i p}, s.store.requests.lookup i = some p → ∃ u ui,
    s.dialogs.objects.cell u = some ui ∧ ui.requestId = i ∧ ui.dismissing = false ∧
      s.Attended i u ui
  idle : ∀ {u ui}, s.dialogs.objects.cell u = some ui →
    s.store.requests.lookup ui.requestId = none → ui.dismissing

variable {L : Limits} {c : Choice} {s s' : Agent} {u : UIPtr} {ui : AskUINotificationBackend}
  {i : RequestId}

theorem served_new : Served new where
  pending hp := by simp [new] at hp
  idle hu := by simp [new] at hu

theorem Attended.mono (h : s.Attended i u ui)
    (hawaited : ∀ q, s.Awaited q → q.id = i → s'.Awaited q)
    (hthrew : s.Threw u → s'.Threw u) : s'.Attended i u ui := by
  rcases h with hrunning | ⟨q, hq, hid, hby⟩ | hthrown
  · exact Or.inl hrunning
  · exact Or.inr (Or.inl ⟨q, hawaited q hq hid, hid, hby⟩)
  · exact Or.inr (Or.inr (hthrew hthrown))

/-- Requests and dialogs as before, and no response is lost. -/
theorem Served.keep (h : Served s) (hrequests : s'.store.requests = s.store.requests)
    (hcells : ∀ u, s'.dialogs.objects.cell u = s.dialogs.objects.cell u)
    (hawaited : ∀ q, s.Awaited q → s'.Awaited q) (hthrew : ∀ u, s.Threw u → s'.Threw u) :
    Served s' where
  pending hp := by
    obtain ⟨u, ui, hu, hid, hdis, hattended⟩ := h.pending (hrequests ▸ hp)
    exact ⟨u, ui, (hcells u).trans hu, hid, hdis,
      hattended.mono (fun q hq _ => hawaited q hq) (hthrew u)⟩
  idle hu hl := h.idle ((hcells _).symm.trans hu) (hrequests ▸ hl)

/-- Some requests are settled, and their dialogs dismissed with others that belong to no request. -/
theorem Served.sweep (h : Served s) {selected : AskUINotificationBackend → Prop}
    (hrequests : ∀ {i p}, s'.store.requests.lookup i = some p → s.store.requests.lookup i = some p)
    (hswept : s.dialogs.Swept s'.dialogs fun _ ui => selected ui)
    (hkept : ∀ {i p}, s'.store.requests.lookup i = some p → ∀ ui, ui.requestId = i →
      ui.dismissing = false → ¬ selected ui)
    (hsettled : ∀ ui, s'.store.requests.lookup ui.requestId = none →
      s.store.requests.lookup ui.requestId = none ∨ selected ui)
    (hawaited : ∀ {i p}, s'.store.requests.lookup i = some p → ∀ q, s.Awaited q → q.id = i →
      s'.Awaited q) (hanswers : s'.answers = s.answers) : Served s' where
  pending hp := by
    obtain ⟨u, ui, hu, hid, hdis, hattended⟩ := h.pending (hrequests hp)
    exact ⟨u, ui, (hswept u).2.1 ui hu (hkept hp ui hid hdis), hid, hdis,
      hattended.mono (fun q hq hqid => hawaited hp q hq hqid) fun ht => by rwa [Threw, hanswers]⟩
  idle hu hl := by
    obtain ⟨ui, hu', ⟨-, -, rfl⟩ | ⟨hsel, rfl⟩⟩ := hswept.of_left hu
    · rfl
    · exact h.idle hu' ((hsettled _ hl).resolve_right hsel)

theorem Awaited.kept {q : Response} (hq : s.Awaited q) (hpc : ∀ q, s.pc ≠ .response q)
    (hr : s'.incomingResponses = s.incomingResponses) : s'.Awaited q :=
  Or.inl (hr ▸ hq.resolve_right (hpc q))

theorem threw_note {a : AnswerAct} {v : UIPtr} (h : s.Threw u) :
    .threw ∈ (s.answers.note v a).story u := by
  rw [Journal.story_note]
  split_ifs
  · exact List.mem_append_left _ h
  · exact h

/-- **A step of the main thread** forgets no request. -/
theorem mainStep_served (h : Inv s) (hserved : Served s)
    (hs : MainStep L c s (mainStep L c s)) :
    (mainStep L c s).pc.isFinal ∨ Served (mainStep L c s) := by
  have hresponse : ∀ q, s.pc = .response q → s.dialogs.Swept (mainStep L c s).dialogs
      fun _ ui => ui.requestId = q.id := fun q hpc => mainStep_response_swept h hpc
  have hcleanup : s.pc = .cleanup → s.dialogs.Swept (mainStep L c s).dialogs
      fun _ ui => ui.dismissing := fun hpc => mainStep_cleanup_swept h hpc
  have hcancel : ∀ p r q, s.pc = .request p → s.store.objects.cell p = some r →
      r.type = RT_Cancel → s.store.requests.lookup r.id = some q →
      s.dialogs.Swept (mainStep L c s).dialogs fun _ ui => ui.requestId = r.id :=
    fun p r q hpc hp hr hl => mainStep_cancel_swept h hpc hp hr hl
  generalize mainStep L c s = s' at *
  cases hs with
  | clashed | exited | finished => exact Or.inl rfl
  | start hpc | popped hpc | closed hpc | duplicate hpc | unknownCancel hpc | thrown hpc =>
    exact Or.inr (hserved.keep rfl (fun _ => rfl) (fun q hq => hq.kept (by simp [hpc]) rfl)
      fun _ => id)
  | moves hm =>
    refine Or.inr (hserved.keep rfl (fun _ => rfl) (fun q hq => hq.kept (fun q hpc => ?_) rfl)
      fun _ => id)
    rw [hpc] at hm
    cases hm
  | startFailed hpc =>
    exact Or.inr (hserved.keep rfl (fun _ => Dialogs.cell_discard)
      (fun q hq => hq.kept (by simp [hpc]) rfl) fun _ => id)
  | @poppedResponse q rest hpc hq =>
    refine Or.inr (hserved.keep rfl (fun _ => rfl) (fun q' hq' => ?_) fun _ => threw_note)
    have hmem : q' ∈ q :: rest := hq ▸ hq'.resolve_right (by simp [hpc])
    rcases List.mem_cons.1 hmem with rfl | hmem
    · exact Or.inr rfl
    · exact Or.inl hmem
  | @cancelled p q r d hpc hp hr hl =>
    refine Or.inr (hserved.sweep (fun hp' => (lookup_of_erase hp').2)
      (hcancel p r q hpc hp hr hl) (fun hp' ui hid _ hsel => ?_) (fun ui hnone => ?_)
      (fun _ q' hq' _ => hq'.kept (by simp [hpc]) rfl) rfl)
    · exact (lookup_of_erase hp').1 (hid.symm.trans hsel)
    · by_cases hid : ui.requestId = r.id
      · exact Or.inr hid
      · exact Or.inl ((AList.lookup_erase_ne hid).symm.trans hnone)
  | @answered q p r d hpc hl =>
    refine Or.inr (hserved.sweep (fun hp' => (lookup_of_erase hp').2) (hresponse q hpc)
      (fun hp' ui hid _ hsel => ?_) (fun ui hnone => ?_) (fun hp' q' hq' hid => ?_) rfl)
    · exact (lookup_of_erase hp').1 (hid.symm.trans hsel)
    · by_cases hid : ui.requestId = q.id
      · exact Or.inr hid
      · exact Or.inl ((AList.lookup_erase_ne hid).symm.trans hnone)
    · -- the response that was processed is for the request that is settled
      refine Or.inl (hq'.resolve_right fun hpc' => ?_)
      obtain rfl : q = q' := Pc.response.inj (hpc.symm.trans hpc')
      exact (lookup_of_erase hp').1 hid.symm
  | @unmatched q d hpc hl =>
    refine Or.inr (hserved.sweep id (hresponse q hpc) (fun {i p} hp' ui hid _ hsel => ?_)
      (fun ui hnone => Or.inl hnone) (fun {i p} hp' q' hq' hid => ?_) rfl)
    · have hlookup : s.store.requests.lookup i = some p := hp'
      rw [← hid, hsel, hl] at hlookup
      exact absurd hlookup (by simp)
    · refine Or.inl (hq'.resolve_right fun hpc' => ?_)
      obtain rfl : q = q' := Pc.response.inj (hpc.symm.trans hpc')
      have hlookup : s.store.requests.lookup i = some p := hp'
      rw [← hid, hl] at hlookup
      exact absurd hlookup (by simp)
  | cleaned hpc =>
    exact Or.inr (hserved.sweep id (hcleanup hpc) (fun _ ui _ hdis hsel => by simp [hdis] at hsel)
      (fun ui hnone => Or.inl hnone) (fun _ q hq _ => hq.kept (by simp [hpc]) rfl) rfl)
  | @recorded p r d hpc hp haction hl hd hc hu =>
    have hlookup : ∀ i, (s.store.insert r.id p).requests.lookup i =
        if i = r.id then some p else s.store.requests.lookup i :=
      Requests.lookup_insert hl
    refine Or.inr ⟨fun {i p'} hp' => ?_, fun {v ui} hv hnone => ?_⟩
    · have hp'' := (hlookup i).symm.trans hp'
      by_cases hi : i = r.id
      · exact ⟨s.dialogs.objects.size, ⟨r.id, false, .running⟩, by simp, hi.symm, rfl, Or.inl rfl⟩
      · rw [if_neg hi] at hp''
        obtain ⟨u, ui, hu', hid, hdis, hattended⟩ := hserved.pending hp''
        refine ⟨u, ui, ?_, hid, hdis,
          hattended.mono (fun q hq _ => hq.kept (by simp [hpc]) rfl) id⟩
        show (s.dialogs.opened c r.id p).objects.cell u = some ui
        rw [Dialogs.cell_opened, if_neg (Nat.ne_of_lt (Heap.lt_size hu')), hu']
    · have hv' : (s.dialogs.opened c r.id p).objects.cell v = some ui := hv
      have hnone' := (hlookup ui.requestId).symm.trans hnone
      rw [Dialogs.cell_opened] at hv'
      split_ifs at hv' hnone' with hvs hid
      · rw [Option.some.injEq] at hv'
        exact absurd (hv' ▸ rfl) hid
      · exact hserved.idle hv' hnone'

/-- The thread of a dialog goes on. When it stops waiting for the user, it leaves a response, or its
callback has thrown. -/
theorem Served.put (h : Served s) (ui' : AskUINotificationBackend)
    (hu : s.dialogs.objects.cell u = some ui) (hid : ui'.requestId = ui.requestId)
    (hdis : ui'.dismissing = ui.dismissing) (hstore : s'.store = s.store)
    (hdialogs : s'.dialogs = s.dialogs.put u ui') (hawaited : ∀ q, s.Awaited q → s'.Awaited q)
    (hthrew : ∀ u, s.Threw u → s'.Threw u)
    (hposted : ui.thread = .running → s'.Attended ui.requestId u ui') : Served s' := by
  have hcell : ∀ v, s'.dialogs.objects.cell v =
      if v = u then some ui' else s.dialogs.objects.cell v := by
    intro v
    rw [hdialogs]
    by_cases hv : v = u <;> simp [Dialogs.put, hv, hu]
  refine ⟨fun hp => ?_, fun {v uv} hv hnone => ?_⟩
  · obtain ⟨v, uv, hv, rfl, hdisv, hattended⟩ := h.pending (hstore ▸ hp)
    have hkept : s'.Attended uv.requestId v uv :=
      hattended.mono (fun q hq _ => hawaited q hq) (hthrew v)
    by_cases hvu : v = u
    · subst hvu
      obtain rfl := Option.some.inj (hu.symm.trans hv)
      exact ⟨v, ui', (hcell v).trans (if_pos rfl), hid, hdis.trans hdisv,
        hkept.elim hposted Or.inr⟩
    · exact ⟨v, uv, (hcell v).trans ((if_neg hvu).trans hv), rfl, hdisv, hkept⟩
  · have hv' := (hcell v).symm.trans hv
    rw [hstore] at hnone
    split_ifs at hv' with hvu
    · obtain rfl := Option.some.inj hv'
      exact hdis ▸ h.idle hu (hid ▸ hnone)
    · exact h.idle hv' hnone

/-- **A step of another thread** forgets no request. -/
theorem OtherStep.served (hserved : Served s) (hs : OtherStep s s') : Served s' := by
  cases hs with
  | talker | sigterm | handed =>
    exact hserved.keep rfl (fun _ => rfl) (fun q hq => hq) fun _ => id
  | @posted u ui type hu ht =>
    refine hserved.put { ui with thread := .posted } hu rfl rfl rfl rfl
      (fun q hq => hq.imp_left fun hq => List.mem_append_left _ hq) (fun _ => threw_note)
      fun _ => Or.inr (Or.inl ?_)
    exact ⟨_, Or.inl (List.mem_append_right _ List.mem_cons_self), rfl, rfl⟩
  | @threw u ui hu ht =>
    refine hserved.put { ui with thread := .posted } hu rfl rfl rfl rfl (fun q hq => hq)
      (fun _ => threw_note) fun _ => Or.inr (Or.inr ?_)
    simp [Threw]
  | @threadFinished u ui hu ht =>
    exact hserved.put { ui with thread := .finished } hu rfl rfl rfl rfl (fun q hq => hq)
      (fun _ => id) fun ht' => by simp [ht] at ht'

/-- **No pending request is forgotten**, along any run up to its end. -/
theorem served {cond : Label → Agent → Prop} (h : Reachable L cond s) :
    s.pc.isFinal ∨ Inv s ∧ Served s := by
  refine h.invariant (P := fun s => s.pc.isFinal = true ∨ Inv s ∧ Served s)
    (Or.inr ⟨inv_new, served_new⟩) fun l s s' ih _ hs => ?_
  rcases ih with hfinal | ⟨hinv, hserved⟩
  · simp [step, hfinal] at hs
  · have hinv' := step_inv hinv hs
    obtain ⟨hpc, ⟨c, rfl, hmain⟩ | ⟨-, hother⟩⟩ := step_cases hinv hs
    · obtain rfl : mainStep L c s = s' := by simpa [step, hpc] using hs
      rcases mainStep_served hinv hserved hmain with hfinal | hserved'
      · exact Or.inl hfinal
      · rcases hinv' with hcrash | hinv'
        · exact Or.inl (by rw [hcrash]; rfl)
        · exact Or.inr ⟨hinv', hserved'⟩
    · exact Or.inr ⟨hother.inv hinv hpc, hother.served hserved⟩

/-! ### Nothing left to do -/

/-- **Every pending request is served**, up to the end of the run. -/
theorem pending_served (h : Reachable L Run.always s) (hpc : s.pc.isFinal = false) : Served s :=
  ((served h).resolve_left (by simp [hpc])).2

/-- A question is cancelled while its dialog is open, and its id is used again. -/
theorem pending_served_reused_id : ∃ s, Reachable .lp64 Run.always s ∧
    s.store.requests.lookup 1 = some 2 ∧ Served s := by
  obtain ⟨s, hs, hst⟩ : ∃ s, Reachable .lp64 Run.always s ∧
      (s.pc, s.store.requests.lookup 1) = (.responses, some 2) :=
    Run.Reachable.exists_of_exec
      [tick, .talker (.initialized true), .talker (.received .ACTION 1 question), tick, tick, tick,
        tick, tick, tick, .talker (.received .CANCEL 1 []), tick, tick, tick,
        .talker (.received .ACTION 1 question), .post 0 0 4, .finish 0, tick, tick,
        tick] (by decide +kernel)
  rw [Prod.mk.injEq] at hst
  exact ⟨s, hs, hst.2, pending_served hs (by rw [hst.1]; rfl)⟩

/-- Nothing is queued or being processed, and no dialog waits for the user. -/
structure Idle (s : Agent) : Prop where
  incomingRequests : s.store.incomingRequests = []
  request : ∀ p, s.pc ≠ .request p
  awaited : ∀ q, ¬ s.Awaited q
  threads : ∀ {u ui}, s.dialogs.objects.cell u = some ui → ui.thread ≠ .running

/-- Everything is answered, and no request is left, but for those of the dialogs whose callbacks
have thrown. -/
structure Settled (s : Agent) : Prop where
  requests : ∀ {i p}, s.store.requests.lookup i = some p → ∃ u ui,
    s.dialogs.objects.cell u = some ui ∧ ui.requestId = i ∧ s.Threw u
  deleted : ∀ {p r}, s.store.objects.cell p = some r → s.store.requests.lookup r.id = some p
  dialogs : ∀ {u ui}, s.dialogs.objects.cell u = some ui → ui.dismissing ∨ s.Threw u
  answered : ∀ p, .recorded ∈ s.store.story p → (responses (s.store.story p)).length =
    if (s.store.objects.cell p).isSome then 0 else 1

/-- Of a request that was recorded and is deleted before the end of the run, exactly one response
was sent. -/
theorem Ended.single_response {exc shut : Prop} {r : Request} {h : List RequestAct}
    (he : Ended exc shut r h) (hshut : ¬ shut) (hrecorded : .recorded ∈ h) :
    (responses h).length = 1 := by
  cases he with
  | answered | cancelled => rfl
  | shutDown hs => exact absurd hs hshut
  | closed | cancel | duplicate | startFailed | thrown | drained => simp at hrecorded

/-- **An agent that has nothing left to do** has answered everything, and has no request left, but
for those whose dialogs' callbacks have thrown. -/
theorem quiescent (h : Reachable L Run.always s) (hpc : s.pc.isFinal = false) (hidle : Idle s) :
    Settled s := by
  obtain ⟨hinv, hserved⟩ := (served h).resolve_left (by simp [hpc])
  have hleft : ∀ {i p}, s.store.requests.lookup i = some p → ∃ u ui,
      s.dialogs.objects.cell u = some ui ∧ ui.requestId = i ∧ s.Threw u := by
    intro i p hl
    obtain ⟨u, ui, hu, hid, -, hrunning | ⟨q, hq, -⟩ | hthrew⟩ := hserved.pending hl
    · exact absurd hrunning (hidle.threads hu)
    · exact absurd hq (hidle.awaited q)
    · exact ⟨u, ui, hu, hid, hthrew⟩
  refine ⟨hleft, fun {p r} hp => ?_, fun {u ui} hu => ?_, fun p hp => ?_⟩
  · -- a live request is in one of three places, and two of them are empty
    obtain ⟨pl, hpl⟩ := hinv.owned.live.1 hp
    obtain ⟨hone, -⟩ := hinv.in_one_place hpl
    by_contra hne
    simp [hidle.incomingRequests, hidle.request p, hne] at hone
  · cases hl : s.store.requests.lookup ui.requestId with
    | none => exact Or.inl (hserved.idle hu hl)
    | some p =>
      obtain ⟨v, uv, hv, hid, hthrew⟩ := hleft hl
      -- the dialog of that request is this one
      have hvu := (hinv.wired.lookup_unique hv).symm.trans
        (hid ▸ hinv.wired.lookup_unique hu)
      exact Or.inr (Option.some.inj hvu ▸ hthrew)
  · cases hcell : s.store.objects.cell p with
    | some r =>
      obtain ⟨pl, hpl⟩ := hinv.owned.live.1 hcell
      simp [hpl.no_response]
    | none =>
      rcases hinv.owned.dead hcell with hnil | ⟨r, hend⟩
      · simp [hnil] at hp
      · exact hend.single_response (by simp [hpc]) hp

/-- One question is answered; the callback of the dialog of another one throws. -/
theorem quiescent_answered : ∃ s, Reachable .lp64 Run.always s ∧ .recorded ∈ s.store.story 0 ∧
    s.store.requests.lookup 2 = some 1 ∧ s.Threw 1 ∧ Settled s := by
  obtain ⟨s, hs, hst⟩ : ∃ s, Reachable .lp64 Run.always s ∧
      (decide (s.pc = .outer ∧ s.store.incomingRequests = [] ∧ s.incomingResponses = []),
        decide (s.dialogs.objects.size = 2 ∧ s.dialogs.objects.cell 0 = none ∧
          (s.dialogs.objects.cell 1).map AskUINotificationBackend.thread = some .finished),
        decide (.recorded ∈ s.store.story 0 ∧ s.store.requests.lookup 2 = some 1 ∧ s.Threw 1)) =
        (true, true, true) :=
    Run.Reachable.exists_of_exec
      [tick, .talker (.initialized true), .talker (.received .ACTION 1 question),
        .talker (.received .ACTION 2 question), tick, tick, tick, tick, tick, tick, tick, tick,
        .post 0 0 4, .finish 0, .postThrows 1, .finish 1, tick, tick, tick, tick]
      (by decide +kernel)
  simp only [Prod.mk.injEq, decide_eq_true_eq] at hst
  obtain ⟨⟨hpc, hqueue, hresponses⟩, ⟨hsize, hcell, hthread⟩, hrecorded, hlookup, hthrew⟩ := hst
  refine ⟨s, hs, hrecorded, hlookup, hthrew,
    quiescent hs (by rw [hpc]; rfl) ⟨hqueue, by simp [hpc], ?_, ?_⟩⟩
  · rintro q (hq | hq)
    · simp [hresponses] at hq
    · simp [hpc] at hq
  · intro u ui hu
    have hlt := Heap.lt_size hu
    obtain rfl | rfl : u = 0 ∨ u = 1 := by omega
    · simp [hcell] at hu
    · rw [hu] at hthread
      simp [Option.some.inj hthread]

end AskUser.Agent
