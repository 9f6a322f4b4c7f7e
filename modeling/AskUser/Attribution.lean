import AskUser.AgentInvariant

/-!
# Whose answer it is

An answer of the user is matched to a request by the id alone. `Attributed` says of a state that
every answer sent so far came from the dialog that was started for the very request it was sent for.

A dialog that was cancelled can leave its response in the queue. If cynara uses the id again and
the agent records the new Action before it has come to that response, the response is taken for
the new one's. `attributed_of_noStaleResponse` is the attribution along the runs in which no dialog
is started for an id with a response in the queue. It rests on two facts about the requests in
`m_requests` (`Matched`): each is served by a dialog that is stored and not dismissed, and a queued
response with its id is by that dialog.
-/

namespace AskUser.Agent
open RequestType Objects

/-- Every answer was given in a dialog that was started for the request. -/
def Attributed (s : Agent) : Prop :=
  ∀ p x q, .sent x ∈ s.store.story p → x.cause = .response q →
    ∃ i, .started i p ∈ s.dialogs.story q.postedBy

/-- If the step starts a dialog, then for an id that no response in the queue has. -/
def NoStaleResponse (L : Limits) (l : Label) (s : Agent) : Prop :=
  ∀ id ∈ startsDialog L l s, ∀ q ∈ s.incomingResponses, q.id ≠ id

instance (L : Limits) (l : Label) (s : Agent) : Decidable (NoStaleResponse L l s) :=
  inferInstanceAs (Decidable (∀ id ∈ startsDialog L l s, ∀ q ∈ s.incomingResponses, q.id ≠ id))

/-- The dialog at `u` is open for the request at `p` with the id `i`. -/
def Dialogs.Serves (d : Dialogs) (u : UIPtr) (i : RequestId) (p : RequestPtr) : Prop :=
  ∃ ui, d.objects.cell u = some ui ∧ ui.requestId = i ∧ ui.dismissing = false ∧
    .started i p ∈ d.story u

/-- A queued response, or the one in the hands of the call in progress. -/
def Awaited (s : Agent) (q : Response) : Prop := q ∈ s.incomingResponses ∨ s.pc = .response q

/-- Each request in `m_requests` has a dialog, and the responses to come that have its id are by
that dialog. -/
structure Matched (s : Agent) : Prop where
  pending : ∀ {i p}, s.store.requests.lookup i = some p → ∃ u, s.dialogs.Serves u i p
  awaited : ∀ {q p}, s.Awaited q → s.store.requests.lookup q.id = some p →
    s.dialogs.Serves q.postedBy q.id p

variable {L : Limits} {c : Choice} {s s' : Agent}

namespace Dialogs

variable {d d' : Dialogs} {u v : UIPtr} {i : RequestId} {p p' : RequestPtr}
  {touched : AskUINotificationBackend → Prop}

theorem Serves.evolve (h : d.Serves u i p) (hev : d.Evolves d' touched)
    (ht : ∀ ui, ui.requestId = i → ui.dismissing = false → ¬ touched ui) : d'.Serves u i p := by
  obtain ⟨ui, hu, hid, hdis, hst⟩ := h
  exact ⟨ui, hev.cell hu (ht ui hid hdis), hid, hdis, (hev.story u).subset hst⟩

theorem Serves.put (h : d.Serves u i p) {ui ui' : AskUINotificationBackend}
    (hv : d.objects.cell v = some ui) (hid : ui'.requestId = ui.requestId)
    (hdis : ui'.dismissing = ui.dismissing) : (d.put v ui').Serves u i p := by
  obtain ⟨uu, hu, hidu, hdisu, hst⟩ := h
  by_cases huv : u = v
  · subst huv
    obtain rfl : uu = ui := Option.some.inj (hu.symm.trans hv)
    exact ⟨ui', by simp [Dialogs.put, hu], hid.trans hidu, hdis.trans hdisu, hst⟩
  · exact ⟨uu, by simp [Dialogs.put, huv, hu], hidu, hdisu, hst⟩

/-- The dialog that serves a request is the one that is stored under its id. -/
theorem Serves.stored (h : d.Serves u i p) (hw : d.Wired) : d.UIs.lookup i = some u := by
  obtain ⟨ui, hu, rfl, -⟩ := h
  exact hw.lookup_unique hu

theorem evolves_discard (d : Dialogs) (c : Choice)
    (touched : AskUINotificationBackend → Prop) : d.Evolves (d.discard c) touched := by
  refine ⟨fun {w uw} hcell _ => by rwa [cell_discard], fun w => ?_⟩
  rw [story_discard]
  split_ifs
  · exact List.prefix_append _ _
  · exact List.prefix_rfl

theorem story_start_prefix (d : Dialogs) (c : Choice) (w : UIPtr) :
    d.story w <+: (d.start c i p).story w := by
  rw [story_start]
  split_ifs
  · exact List.prefix_append _ _
  · exact List.prefix_rfl

theorem story_free_prefix (d : Dialogs) (v w : UIPtr) : d.story w <+: (d.free v).story w := by
  rw [story_free]
  split_ifs
  · exact List.prefix_append _ _
  · exact List.prefix_rfl

theorem evolves_opened (d : Dialogs) (c : Choice) : d.Evolves (d.opened c i p) touched := by
  refine ⟨fun {w uw} hcell _ => ?_, fun w => story_start_prefix d c w⟩
  have hne : w ≠ d.objects.size := fun he => by simp [he] at hcell
  rw [cell_opened, if_neg hne, hcell]

theorem serves_opened (d : Dialogs) (c : Choice) : (d.opened c i p).Serves d.objects.size i p :=
  ⟨⟨i, false, .running⟩, by simp, rfl, rfl, by simp⟩

end Dialogs

/-! ### What a step does to the stories of the dialogs -/

/-- No step rewrites the story of a dialog. -/
theorem MainStep.dialog_story (hs : MainStep L c s s') (u : UIPtr) :
    s.dialogs.story u <+: s'.dialogs.story u := by
  cases hs with
  | start | moves | popped | closed | duplicate | unknownCancel | thrown | poppedResponse =>
    exact List.prefix_rfl
  | cancelled _ _ _ _ _ hev | answered _ _ _ _ _ hev | unmatched _ _ _ hev | cleaned _ _ hev
    | exited _ _ _ _ _ hev | finished _ _ _ _ _ hev => exact hev.story u
  | startFailed =>
    exact (Dialogs.evolves_discard _ c fun _ => False).story u
  | recorded => exact Dialogs.story_start_prefix _ c u
  | clashed =>
    exact (Dialogs.story_start_prefix _ c u).trans (Dialogs.story_free_prefix _ _ u)

theorem OtherStep.dialog_story (hs : OtherStep s s') (u : UIPtr) :
    s'.dialogs.story u = s.dialogs.story u := by
  cases hs <;> rfl

/-! ### Attribution along a run -/

/-- A step of the main thread keeps the attribution of the answers. -/
theorem MainStep.attributed (hm : Matched s) (ha : Attributed s)
    (hs : MainStep L c s s') : Attributed s' := by
  intro p x q hx hcause
  rcases hs.sent hx with hx | hstart | ⟨q', hpc, hl, hcause'⟩ | ⟨_, _, -, -, -, -, hcancel⟩
  · obtain ⟨i, hi⟩ := ha p x q hx hcause
    exact ⟨i, (hs.dialog_story _).subset hi⟩
  · exact absurd (hstart.symm.trans hcause) (by simp)
  · obtain rfl : q' = q := Cause.response.inj (hcause'.symm.trans hcause)
    obtain ⟨-, -, -, -, hst⟩ := hm.awaited (Or.inr hpc) hl
    exact ⟨_, (hs.dialog_story _).subset hst⟩
  · exact absurd (hcancel.symm.trans hcause) (by simp)

/-- Requests and dialogs as before, or changed without harm. -/
theorem Matched.keep (hm : Matched s) {touched : AskUINotificationBackend → Prop}
    (hrequests : ∀ {i p}, s'.store.requests.lookup i = some p → s.store.requests.lookup i = some p)
    (hev : s.dialogs.Evolves s'.dialogs touched)
    (htouched : ∀ {i p}, s'.store.requests.lookup i = some p → ∀ ui, ui.requestId = i →
      ui.dismissing = false → ¬ touched ui)
    (hawaited : ∀ q, s'.Awaited q → s.Awaited q) : Matched s' where
  pending := fun hp => by
    obtain ⟨u, hu⟩ := hm.pending (hrequests hp)
    exact ⟨u, hu.evolve hev (htouched hp)⟩
  awaited := fun hq hp => (hm.awaited (hawaited _ hq) (hrequests hp)).evolve hev (htouched hp)

theorem Awaited.of_queue {q : Response} (hq : s'.Awaited q)
    (hr : s'.incomingResponses = s.incomingResponses) (hpc : ∀ q, s'.pc ≠ .response q) :
    s.Awaited q :=
  Or.inl (hr ▸ hq.resolve_right (hpc q))

/-- No request is recorded or settled, and no dialog is touched. -/
theorem Matched.untouched (hm : Matched s) (hrequests : s'.store.requests = s.store.requests)
    (hdialogs : s'.dialogs = s.dialogs) (hawaited : ∀ q, s'.Awaited q → s.Awaited q) :
    Matched s' where
  pending := fun hp => by
    rw [hdialogs]
    exact hm.pending (hrequests ▸ hp)
  awaited := fun hq hp => by
    rw [hdialogs]
    exact hm.awaited (hawaited _ hq) (hrequests ▸ hp)

/-- A request leaves `m_requests` and nothing else. -/
theorem lookup_of_erase {b : AList fun _ : RequestId => RequestPtr} {id i : RequestId}
    {p : RequestPtr} (h : (b.erase id).lookup i = some p) : i ≠ id ∧ b.lookup i = some p := by
  by_cases hi : i = id
  · rw [hi, AList.lookup_erase] at h
    exact absurd h (by simp)
  · exact ⟨hi, by rwa [AList.lookup_erase_ne hi] at h⟩

/-- A step of the main thread that starts no dialog for the id of a queued response keeps the
requests matched with their dialogs. -/
theorem MainStep.matched (hm : Matched s) (hs : MainStep L c s s')
    (hstale : NoStaleResponse L (.main c) s) : s'.pc.isFinal ∨ Matched s' := by
  cases hs with
  | clashed | exited | finished => exact Or.inl rfl
  | start | popped | closed | duplicate | unknownCancel | thrown =>
    exact Or.inr (hm.untouched rfl rfl fun q hq => hq.of_queue rfl (by simp))
  | moves hmove =>
    refine Or.inr (hm.untouched rfl rfl fun q hq => hq.of_queue rfl fun q => ?_)
    generalize s.pc = pc at hmove
    cases hmove <;> simp
  | cancelled _ _ _ _ _ hev =>
    exact Or.inr (hm.keep (fun hp => (lookup_of_erase hp).2) hev
      (fun hp ui hid _ ht => (lookup_of_erase hp).1 (hid.symm.trans ht))
      fun q hq => hq.of_queue rfl (by simp))
  | startFailed =>
    exact Or.inr (hm.keep id (Dialogs.evolves_discard _ c fun _ => False)
      (fun _ _ _ _ => id) fun q hq => hq.of_queue rfl (by simp))
  | poppedResponse hpc hq =>
    refine Or.inr (hm.untouched rfl rfl fun q hawaited => Or.inl ?_)
    rw [hq, List.mem_cons]
    rcases hawaited with hmem | hcur
    · exact Or.inr hmem
    · exact Or.inl (Pc.response.inj hcur).symm
  | answered _ _ _ _ _ hev =>
    exact Or.inr (hm.keep (fun hp => (lookup_of_erase hp).2) hev
      (fun hp ui hid _ ht => (lookup_of_erase hp).1 (hid.symm.trans ht))
      fun q hq => hq.of_queue rfl (by simp))
  | unmatched _ hnone _ hev =>
    -- the dialog that is dismissed has the id of a response, and no request has that id
    refine Or.inr (hm.keep id hev (fun hp ui hid _ ht => ?_) fun q hq => hq.of_queue rfl (by simp))
    rw [← hid.symm.trans ht, hp] at hnone
    simp at hnone
  | cleaned _ _ hev =>
    exact Or.inr (hm.keep id hev (fun _ ui _ hdis ht => by simp [hdis] at ht)
      fun q hq => hq.of_queue rfl (by simp))
  | @recorded p r d hpc hp haction hl hd hc hu =>
    -- the new request is served by the new dialog; that no queued response has its id is `hstale`
    have hev : s.dialogs.Evolves (s.dialogs.opened c r.id p) (fun _ => False) :=
      Dialogs.evolves_opened _ c
    have hlookup : ∀ {i}, i ≠ r.id →
        (s.store.insert r.id p).requests.lookup i = s.store.requests.lookup i := fun {i} hi => by
      rw [Requests.lookup_insert hl, if_neg hi]
    have hnew : (s.store.insert r.id p).requests.lookup r.id = some p := by
      rw [Requests.lookup_insert hl, if_pos rfl]
    refine Or.inr ⟨fun {i p'} hp' => ?_, fun {q p'} hq hp' => ?_⟩
    · by_cases hi : i = r.id
      · subst hi
        obtain rfl : p = p' := Option.some.inj (hnew.symm.trans hp')
        exact ⟨_, Dialogs.serves_opened _ c⟩
      · obtain ⟨u, hserve⟩ := hm.pending ((hlookup hi).symm.trans hp')
        exact ⟨u, hserve.evolve hev fun _ _ _ => id⟩
    · have hqueue : q ∈ s.incomingResponses := hq.resolve_right (by simp)
      have hi : q.id ≠ r.id := hstale r.id (by
        simp [startsDialog, hpc, hp, haction, hl, hd, hc, Except.isOk, Except.toBool]) q hqueue
      exact (hm.awaited (Or.inl hqueue) ((hlookup hi).symm.trans hp')).evolve hev fun _ _ _ => id

theorem OtherStep.matched (h : Inv s) (hm : Matched s) (hs : OtherStep s s') : Matched s' := by
  cases hs with
  | talker | handed | sigterm =>
    exact hm.untouched rfl rfl fun q hq => hq
  | @posted u ui type hu ht =>
    have hkeep : ∀ {v i p}, s.dialogs.Serves v i p →
        (s.dialogs.put u { ui with thread := .posted }).Serves v i p :=
      fun hserve => hserve.put hu rfl rfl
    refine ⟨fun hp => ?_, fun {q p} hq hp => ?_⟩
    · obtain ⟨v, hserve⟩ := hm.pending hp
      exact ⟨v, hkeep hserve⟩
    · rcases hq with hq | hcur
      · rcases List.mem_append.1 hq with hq | hq
        · exact hkeep (hm.awaited (Or.inl hq) hp)
        · -- the new response is by the dialog that its id is stored under
          obtain rfl := List.mem_singleton.1 hq
          obtain ⟨v, hserve⟩ := hm.pending hp
          obtain rfl : u = v := Option.some.inj
            ((h.wired.lookup_unique hu).symm.trans (hserve.stored h.wired))
          exact hkeep hserve
      · exact hkeep (hm.awaited (Or.inr hcur) hp)
  | @threw u ui hu | @threadFinished u ui hu =>
    refine ⟨fun hp => ?_, fun {q p} hq hp => (hm.awaited hq hp).put hu rfl rfl⟩
    obtain ⟨v, hserve⟩ := hm.pending hp
    exact ⟨v, hserve.put hu rfl rfl⟩

theorem matched_new : Matched new :=
  ⟨fun hp => by simp [new] at hp, fun _ hp => by simp [new] at hp⟩

theorem attributed_new : Attributed new := by
  intro _ _ _ hx
  simp [new, Requests.story] at hx

/-- Answers are attributed wherever no dialog is started for the id of a queued response. -/
theorem attributed {cond : Label → Agent → Prop} (hcond : ∀ l s, cond l s → NoStaleResponse L l s)
    (h : Reachable L cond s) : Attributed s := by
  refine (h.invariant (P := fun s => Attributed s ∧ (s.pc.isFinal ∨ Inv s ∧ Matched s))
    ⟨attributed_new, Or.inr ⟨inv_new, matched_new⟩⟩ fun l s s' ih hl hs => ?_).1
  obtain ⟨hattr, hfinal | ⟨hinv, hmatched⟩⟩ := ih
  · simp [step, hfinal] at hs
  · obtain ⟨hpc, ⟨c, rfl, hmain⟩ | ⟨-, hother⟩⟩ := step_cases hinv hs
    · refine ⟨hmain.attributed hmatched hattr, ?_⟩
      rcases hmain.inv hinv with hcrash | hinv'
      · exact Or.inl (by rw [hcrash]; rfl)
      · exact (hmain.matched hmatched (hcond _ _ hl)).imp_right fun hm => ⟨hinv', hm⟩
    · refine ⟨fun p x q hx hcause => ?_, Or.inr ⟨hother.inv hinv hpc,
        hother.matched hinv hmatched⟩⟩
      obtain ⟨i, hi⟩ := hattr p x q (hother.sent hx) hcause
      exact ⟨i, by rwa [hother.dialog_story]⟩

/-- **Attribution** along every run that starts no dialog for the id of a queued response. -/
theorem attributed_of_noStaleResponse
    (h : Reachable L (Run.both Disciplined (NoStaleResponse L)) s) : Attributed s :=
  attributed (fun _ _ hl => hl.2) h

/-- A question is cancelled and answered too late; its id is used again once the late answer is
gone. -/
theorem attributed_late_answer : ∃ s,
    Reachable .lp64 (Run.both Disciplined (NoStaleResponse .lp64)) s ∧ Attributed s ∧
      .sent (answer ⟨RT_Action, 1, question⟩ ⟨1, .URT_NO_ONCE, 1⟩) ∈ s.store.story 2 := by
  obtain ⟨s, hs, hst⟩ : ∃ s, Reachable .lp64 (Run.both Disciplined (NoStaleResponse .lp64)) s ∧
      decide (.sent (answer ⟨RT_Action, 1, question⟩ ⟨1, .URT_NO_ONCE, 1⟩) ∈
        s.store.story 2) = true :=
    Run.Reachable.exists_of_exec
      [tick, .talker (.initialized true), .talker (.received .ACTION 1 question), tick, tick, tick,
        tick, .talker (.received .CANCEL 1 []), tick, tick, tick, tick, tick,
        .post 0 0 4, .finish 0, tick, tick, tick, .talker (.received .ACTION 1 question), tick,
        tick, tick, tick, .post 1 0 1, .finish 1, tick, tick] (by decide +kernel)
  exact ⟨s, hs, attributed_of_noStaleResponse hs, of_decide_eq_true hst⟩

/-- The answer to a cancelled question is taken for the answer to the next one with its id: the
user's `URT_YES_ONCE` in the dialog of the request `0` is sent about the request `2`. -/
theorem not_attributed_stale_response : ∃ s, Reachable .lp64 Disciplined s ∧
    .sent (answer ⟨RT_Action, 1, question⟩ ⟨1, .URT_YES_ONCE, 0⟩) ∈ s.store.story 2 ∧
      s.dialogs.story 0 = [.started 1 0, .joined, .destroyed] ∧ ¬ Attributed s := by
  obtain ⟨s, hs, hst⟩ : ∃ s, Reachable .lp64 Disciplined s ∧
      (decide (.sent (answer ⟨RT_Action, 1, question⟩ ⟨1, .URT_YES_ONCE, 0⟩) ∈ s.store.story 2),
        s.dialogs.story 0) = (true, [.started 1 0, .joined, .destroyed]) :=
    Run.Reachable.exists_of_exec
      [tick, .talker (.initialized true), .talker (.received .ACTION 1 question), tick, tick, tick,
        tick, tick, tick, .talker (.received .CANCEL 1 []), tick, tick, tick,
        .talker (.received .ACTION 1 question), .post 0 0 4, .finish 0, tick, tick, tick, tick,
        tick] (by decide +kernel)
  rw [Prod.mk.injEq, decide_eq_true_eq] at hst
  refine ⟨s, hs, hst.1, hst.2, fun hattr => ?_⟩
  obtain ⟨i, hi⟩ := hattr 2 _ _ hst.1 rfl
  simp [hst.2] at hi

end AskUser.Agent
