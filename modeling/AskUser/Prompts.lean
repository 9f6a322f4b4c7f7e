import AskUser.Records

/-!
# The dialogs and the questions

How often the users are asked, over whole runs of the system.

* `prompts` are the dialogs whose threads were started, each with the request and the id that it was
  started for. `Prompted` says that they are one for each request that was recorded (`prompted`);
* `never_asked_more`: the users are not asked more often than cynara has asked;
* `balance`: every dialog has led to one response, or its question is still pending.

Both are counted for each id, so they hold also where cynara uses an id again.
-/

namespace AskUser
open Agent RequestType Objects

namespace Agent

variable {L : Limits} {c : Choice} {s s' : Agent} {p : RequestPtr} {i : RequestId}

/-! ### The dialogs that were started -/

def DialogAct.prompt : DialogAct → Option (RequestPtr × RequestId)
  | .started i p => some (p, i)
  | .joined | .destroyed => none

/-- The dialogs that were started so far, in order. -/
def Dialogs.prompts (d : Dialogs) : List (RequestPtr × RequestId) :=
  d.journal.entries.filterMap fun e => e.2.prompt

theorem prompts_start {d : Dialogs} : (d.start c i p).prompts = d.prompts ++ [(p, i)] := by
  show (d.journal.entries ++ [(d.objects.size, DialogAct.started i p)]).filterMap _ = _
  rw [List.filterMap_append]
  rfl

theorem prompts_free {d : Dialogs} {u : UIPtr} : (d.free u).prompts = d.prompts := by
  show (d.journal.entries ++ [(u, DialogAct.destroyed)]).filterMap _ = _
  rw [List.filterMap_append]
  exact List.append_nil _

theorem prompts_of_noStart (h : noStart.rel s s') : s'.dialogs.prompts = s.dialogs.prompts :=
  Fallible.filterMap_of_appends h fun e he => by
    cases hact : e.2 with
    | started i p => exact absurd hact (he i p)
    | joined | destroyed => rfl

/-! ### The steps of the main thread -/

/-- A step of the main thread starts no dialog and records no request, or it does both, unless the
step is a clash. -/
inductive Prompts (s s' : Agent) : Prop
  | none : s'.dialogs.prompts = s.dialogs.prompts →
      (∀ q, .recorded ∈ s'.store.story q ↔ .recorded ∈ s.store.story q) → Prompts s s'
  | one {p r} : s.pc = .request p → s.store.objects.cell p = some r → r.type = RT_Action →
      s'.dialogs.prompts = s.dialogs.prompts ++ [(p, r.id)] →
      (s'.pc = .crashed .terminate ∨
        ∀ q, .recorded ∈ s'.store.story q ↔ .recorded ∈ s.store.story q ∨ q = p) → Prompts s s'

section Recorded

variable {b : Requests} {q : RequestPtr}

theorem recorded_note {a : RequestAct} (ha : a ≠ .recorded) :
    .recorded ∈ (b.note p a).story q ↔ .recorded ∈ b.story q :=
  mem_story_note.trans (or_iff_left fun h => ha h.2.symm)

theorem recorded_free : .recorded ∈ (b.free p).story q ↔ .recorded ∈ b.story q :=
  recorded_note (by simp)

end Recorded

/-- The last step records nothing. -/
theorem mainStep_stopped_recorded (hpc : s.pc = .stopped) (q : RequestPtr) :
    .recorded ∈ (mainStep L c s).store.story q ↔ .recorded ∈ s.store.story q := by
  obtain ⟨new, hstory, hnew⟩ := story_of_written (mainStep_last L c hpc) q
  rw [hstory, List.mem_append, or_iff_left]
  intro hmem
  simpa [IsDeletion] using hnew _ hmem

/-- **A step of the main thread.** -/
theorem mainStep_prompts (h : Inv s) (hrun : s.pc.isFinal = false) :
    Prompts s (mainStep L c s) := by
  have hs := mainStep_cases (L := L) (c := c) h hrun
  have hno := noStart_mainStep (L := L) (c := c) (s := s)
  have hstopped := mainStep_stopped_recorded (L := L) (c := c) (s := s)
  generalize mainStep L c s = s' at *
  cases hs with
  | @recorded p r d hpc hp ht hl =>
    refine .one hpc hp ht prompts_start (Or.inr fun q => ?_)
    simp only [mem_story_insert hl, and_true]
  | @clashed p r d u hpc hp ht =>
    exact .one hpc hp ht (prompts_free.trans prompts_start) (Or.inl rfl)
  | duplicate | thrown =>
    exact .none rfl fun q => recorded_free.trans (recorded_note (by simp))
  | startFailed =>
    refine .none prompts_free fun q => ?_
    exact recorded_free.trans ((recorded_note (by simp)).trans (recorded_note (by simp)))
  | closed hpc hp ht | unknownCancel hpc hp ht =>
    exact .none rfl fun q => recorded_free
  | cancelled hpc hp ht =>
    refine .none (prompts_of_noStart (hno fun p' r' hpc' hp' => ?_)) fun q => ?_
    · obtain rfl := Pc.request.inj (hpc.symm.trans hpc')
      obtain rfl := Option.some.inj (hp.symm.trans hp')
      simp [ht]
    · exact recorded_free.trans ((recorded_note (by simp)).trans recorded_free)
  | popped => exact .none rfl fun q => recorded_note (by simp)
  | moves | start | poppedResponse => exact .none rfl fun q => Iff.rfl
  | answered hpc =>
    refine .none (prompts_of_noStart (hno fun p' r' hpc' => by simp [hpc] at hpc')) fun q => ?_
    exact recorded_free.trans (recorded_note (by simp))
  | unmatched hpc | cleaned hpc =>
    exact .none (prompts_of_noStart (hno fun p' r' hpc' => by simp [hpc] at hpc')) fun q => Iff.rfl
  | exited _ hpc | finished _ hpc =>
    exact .none (prompts_of_noStart (hno fun p' r' hpc' => by simp [hpc] at hpc')) (hstopped hpc)

/-! ### One dialog for each question -/

/-- The dialogs that were started are one for each request that was recorded, unless a clash has
ended the run. -/
structure Prompted (s : Agent) : Prop where
  asked : ∀ {p i}, (p, i) ∈ s.dialogs.prompts →
    ∃ r, .handed r ∈ s.store.story p ∧ r.type = RT_Action ∧ r.id = i
  once : (s.dialogs.prompts.map Prod.fst).Nodup
  recorded : s.pc = .crashed .terminate ∨
    ∀ p, p ∈ s.dialogs.prompts.map Prod.fst ↔ .recorded ∈ s.store.story p

theorem prompted_new : Prompted new where
  asked hp := by simp [new, Dialogs.prompts, Journal.empty] at hp
  once := List.nodup_nil
  recorded := Or.inr fun p => by
    simp [new, Dialogs.prompts, Journal.empty, Requests.story, Journal.story]

/-- No dialog is started, and no story changes but for the arrival of a request. -/
theorem Prompted.same (h : Prompted s) (hrun : s.pc.isFinal = false)
    (hprompts : s'.dialogs.prompts = s.dialogs.prompts)
    (hstory : ∀ q e, e ∈ s.store.story q → e ∈ s'.store.story q)
    (hrecorded : ∀ q, .recorded ∈ s'.store.story q ↔ .recorded ∈ s.store.story q) :
    Prompted s' where
  asked hp := by
    obtain ⟨r, hr, hrest⟩ := h.asked (hprompts ▸ hp)
    exact ⟨r, hstory _ _ hr, hrest⟩
  once := hprompts ▸ h.once
  recorded := by
    have hiff := h.recorded.resolve_left fun hcrash => by simp [hcrash, Pc.isFinal] at hrun
    exact Or.inr fun p => by rw [hprompts, hiff, hrecorded]

/-- **A step of the main thread** starts a dialog for a request that it has not seen before. -/
theorem Prompted.main (h : Prompted s) (hinv : Inv s) (hrun : s.pc.isFinal = false) :
    Prompted (mainStep L c s) := by
  have hiff := h.recorded.resolve_left fun hcrash => by simp [hcrash, Pc.isFinal] at hrun
  rcases mainStep_prompts (L := L) (c := c) hinv hrun with
    ⟨hprompts, hrecorded⟩ | @⟨p, r, hpc, hp, ht, hprompts, hrecorded⟩
  · refine ⟨fun hp => ?_, hprompts ▸ h.once, Or.inr fun p => by rw [hprompts, hiff, hrecorded]⟩
    obtain ⟨r, hr, hrest⟩ := h.asked (hprompts ▸ hp)
    exact ⟨r, mainStep_story hr, hrest⟩
  · obtain ⟨r', hr'⟩ := hinv.owned.processing.1 (pc_request_iff.1 hpc)
    obtain rfl : r = r' := Option.some.inj (hp.symm.trans (hinv.owned.live.2 ⟨_, hr'⟩))
    have hnew : p ∉ s.dialogs.prompts.map Prod.fst := by
      rw [hiff, hr'.of_processing]
      simp
    refine ⟨fun hmem => ?_, ?_, hrecorded.imp_right fun hrecorded q => ?_⟩
    · rw [hprompts, List.mem_append, List.mem_singleton] at hmem
      rcases hmem with hmem | hmem
      · obtain ⟨r, hr, hrest⟩ := h.asked hmem
        exact ⟨r, mainStep_story hr, hrest⟩
      · obtain ⟨rfl, rfl⟩ := Prod.mk.inj hmem
        exact ⟨r, mainStep_story (by rw [hr'.of_processing]; simp), ht, rfl⟩
    · rw [hprompts, List.map_append]
      exact h.once.append (List.nodup_singleton _) (by simpa using hnew)
    · rw [hprompts, List.map_append, List.mem_append, hrecorded, hiff]
      simp

/-- A request is handed in. -/
theorem Prompted.hand (h : Prompted s) (hrun : s.pc.isFinal = false) {r : Request}
    (hdialogs : s'.dialogs = s.dialogs) (hstore : s'.store = s.store.hand r) : Prompted s' := by
  refine h.same hrun (by rw [hdialogs]) (fun q e he => ?_) fun q => ?_
  · rw [hstore, mem_story_hand]
    exact Or.inl he
  · rw [hstore, mem_story_hand]
    exact or_iff_left (by simp)

/-- A step of a dialog's thread. -/
theorem OtherStep.prompted (hs : OtherStep s s') (hrun : s.pc.isFinal = false) (h : Prompted s) :
    Prompted s' := by
  cases hs with
  | handed r => exact h.hand hrun rfl rfl
  | talker | posted | threw | threadFinished | sigterm =>
    exact h.same hrun rfl (fun _ _ he => he) fun _ => Iff.rfl

end Agent

namespace System

variable {L : Limits} {s : System} {cond : Label → System → Prop}

/-- **One dialog** for each question. -/
theorem prompted (h : Reachable L cond s) : Prompted s.agent := by
  induction h with
  | start => exact prompted_new
  | @step s s' l hr _ hs ih =>
    have hsound := sound_of_step hr hs
    cases l with
    | agent l =>
      obtain ⟨-, a, ha, rfl⟩ := step_agent hs
      obtain ⟨hrun, ⟨c, rfl, -⟩ | ⟨-, hother⟩⟩ := step_cases hsound.inv ha
      · obtain rfl : mainStep L c s.agent = a := by simpa [Agent.step, hrun] using ha
        exact ih.main hsound.inv hrun
      · exact hother.prompted hrun ih
    | thread e =>
      obtain ⟨hrun, hstep⟩ := step_thread hs
      obtain ⟨hagent, hstore⟩ := hstep.agent
      have hdialogs : s'.agent.dialogs = s.agent.dialogs := by rw [hagent]
      rcases hstore with hstore | ⟨r, hstore⟩
      · exact ih.same hrun (by rw [hdialogs]) (fun _ _ he => by rwa [hstore])
          fun _ => by rw [hstore]
      · exact ih.hand hrun hdialogs hstore

/-- **The users are not asked more often** than cynara has asked: with each id, no more dialogs are
started than Actions were received. -/
theorem never_asked_more (h : Reachable L cond s) (i : RequestId) :
    s.agent.dialogs.prompts.countP (fun x => x.2 = i) ≤ s.thread.received.countP (asksAbout i) := by
  have hprompted := prompted h
  have hrecords := records h
  have hhanded : s.agent.dialogs.prompts.countP (fun x => x.2 = i) ≤
      s.thread.handed.countP (isAction i) := by
    refine countP_le_of_positions (p := fun j : RequestId => j = i) hprompted.once ?_
    intro p j hp hj
    obtain ⟨r, hr, ht, hid⟩ := hprompted.asked hp
    refine ⟨r, hrecords.lined.handed hr, ?_⟩
    simpa [isAction, ht, hid] using hj
  have hasked := hrecords.asked i
  unfold Asked at hasked
  omega

/-- A question is asked twice, and the second one is dropped. -/
def duplicateRun : List Label :=
  [.agent tick, .thread (.agentInitialize true), .agent tick, .agent tick,
    .thread (.getRequest (some ⟨.ACTION, 1, some question⟩)), .thread (.construct none),
    .thread (.handle none), .thread .proceed,
    .thread (.getRequest (some ⟨.ACTION, 1, some question⟩)), .thread (.construct none),
    .thread (.handle none), .thread .proceed] ++ List.replicate 8 (.agent tick)

theorem never_asked_more_duplicate : ∃ s, Reachable .lp64 Run.always s ∧
    s.thread.received.countP (asksAbout 1) = 2 ∧
    s.agent.dialogs.prompts.countP (fun x => x.2 = 1) ≤
      s.thread.received.countP (asksAbout 1) := by
  obtain ⟨s, hs, hst⟩ : ∃ s, Reachable .lp64 Run.always s ∧
      s.thread.received.countP (asksAbout 1) = 2 :=
    Run.Reachable.exists_of_exec duplicateRun (by decide +kernel)
  exact ⟨s, hs, hst, never_asked_more hs 1⟩

/-! ### What comes of a dialog -/

/-- The response comes from a dialog, or from a Cancel. -/
def Settles (i : RequestId) (x : Sent) : Prop := x.requestId = i ∧ x.cause ≠ .startFailure

instance (i : RequestId) (x : Sent) : Decidable (Settles i x) :=
  inferInstanceAs (Decidable (_ ∧ _))

/-- A recorded request is pending, or a response has settled it. -/
theorem recorded_iff {a : Agent} (h : Inv a) (hrun : a.pc.isFinal = false) {p : RequestPtr}
    {r : Request} (hr : .handed r ∈ a.store.story p) : .recorded ∈ a.store.story p ↔
      (∃ x, .sent x ∈ a.store.story p ∧ Settles r.id x) ∨
        a.store.requests.lookup r.id = some p := by
  have hlookup := h.owned.pending (i := r.id) (p := p)
  rcases h.handed hr with ⟨-, pl, hpl⟩ | ⟨-, hend⟩
  · have hnone : ¬ ∃ x, .sent x ∈ a.store.story p ∧ Settles r.id x := by
      rintro ⟨x, hx, -⟩
      rw [← mem_responses, hpl.no_response] at hx
      exact List.not_mem_nil hx
    have hpending : a.store.requests.lookup r.id = some p ↔ pl = .pending := by
      rw [hlookup]
      constructor
      · rintro ⟨r', hr', -⟩
        exact (hpl.place_unique hr').2
      · rintro rfl
        exact ⟨r, hpl, rfl⟩
    rw [or_iff_right hnone, hpending]
    generalize a.store.story p = story at hpl
    cases hpl <;> simp
  · have hnone : a.store.requests.lookup r.id ≠ some p := fun hl => by
      obtain ⟨r', hr', -⟩ := hlookup.1 hl
      exact hr'.not_ended hend
    rw [or_iff_left hnone]
    generalize a.store.story p = story at hend
    cases hend with
    | drained hshut | shutDown hshut => simp [hrun] at hshut
    | answered | cancelled | startFailed => simp [Settles, answer, cancellation, startFailure]
    | closed | cancel | duplicate | thrown => simp

/-- **Every dialog is accounted for.** While the agent runs, each dialog that was started for an id
has led to one response with this id, or is the one for the pending request. -/
theorem balance (h : Reachable L cond s) (hrun : s.agent.pc.isFinal = false) (i : RequestId) :
    s.agent.dialogs.prompts.countP (fun x => x.2 = i) =
      (sends s.agent).countP (fun x => Settles i x.2) +
        (s.agent.store.requests.lookup i).toList.length := by
  have hprompted := prompted h
  have hiff := hprompted.recorded.resolve_left fun hcrash => by simp [hcrash, Pc.isFinal] at hrun
  have hinv : Inv s.agent := ((sound h).resolve_left fun hcrash => by
    simp [hcrash, Pc.isFinal] at hrun).inv
  have hperm : ((s.agent.dialogs.prompts.filter fun x => x.2 = i).map Prod.fst).Perm
      (((sends s.agent).filter fun x => Settles i x.2).map Prod.fst ++
        (s.agent.store.requests.lookup i).toList) := by
    have hsettled : ∀ p, p ∈ ((sends s.agent).filter fun x => Settles i x.2).map Prod.fst ↔
        ∃ x, .sent x ∈ s.agent.store.story p ∧ Settles i x := fun p => by
      simp [← mem_sends]
    refine (List.perm_ext_iff_of_nodup ?_ ?_).2 fun p => ?_
    · exact hprompted.once.sublist (List.filter_sublist.map _)
    · refine (hinv.sends_nodup.sublist (List.filter_sublist.map _)).append
        (Option.toList_nodup _) fun p hp hl => ?_
      -- what is pending was sent no response
      obtain ⟨x, hx, -⟩ := (hsettled p).1 hp
      obtain ⟨r, hr, -⟩ := hinv.owned.pending.1 (Option.mem_toList.1 hl)
      rw [← mem_responses, hr.no_response] at hx
      exact List.not_mem_nil hx
    · rw [List.mem_append, hsettled, Option.mem_toList]
      constructor
      · intro hp
        obtain ⟨⟨q, j⟩, hfilter, rfl⟩ := List.mem_map.1 hp
        obtain ⟨hmem, hj⟩ := List.mem_filter.1 hfilter
        obtain ⟨r, hr, -, hid⟩ := hprompted.asked hmem
        obtain rfl : r.id = i := hid.trans (of_decide_eq_true hj)
        exact (recorded_iff hinv hrun hr).1 ((hiff q).1 (List.mem_map_of_mem hmem))
      · intro hp
        obtain ⟨r, hr, rfl⟩ : ∃ r, .handed r ∈ s.agent.store.story p ∧ r.id = i := by
          rcases hp with ⟨x, hx, hid, -⟩ | hl
          · obtain ⟨r, hr, -, hrid, -⟩ := hinv.about hx
            exact ⟨r, hr, hrid.trans hid⟩
          · obtain ⟨r, hr, hid⟩ := hinv.owned.pending.1 hl
            exact ⟨r, by rw [hr.of_pending.2]; simp, hid⟩
        obtain ⟨⟨q, j⟩, hmem, rfl⟩ := List.mem_map.1
          ((hiff p).2 ((recorded_iff hinv hrun hr).2 hp))
        obtain ⟨r', hr', -, rfl⟩ := hprompted.asked hmem
        obtain rfl := hinv.handed_unique hr hr'
        exact List.mem_map.2 ⟨_, List.mem_filter.2 ⟨hmem, by simp⟩, rfl⟩
  have hlength := hperm.length_eq
  simpa [List.countP_eq_length_filter] using hlength

theorem balance_answered : ∃ s, Reachable .lp64 Run.always s ∧ s.agent.pc.isFinal = false ∧
    s.agent.dialogs.prompts.countP (fun x => x.2 = 1) = 1 ∧
    s.agent.dialogs.prompts.countP (fun x => x.2 = 1) =
      (sends s.agent).countP (fun x => Settles 1 x.2) +
        (s.agent.store.requests.lookup 1).toList.length := by
  obtain ⟨s, hs, hst⟩ : ∃ s, Reachable .lp64 Run.always s ∧
      (s.agent.pc.isFinal, s.agent.dialogs.prompts.countP (fun x => x.2 = 1)) = (false, 1) :=
    Run.Reachable.exists_of_exec
      (duplicateRun ++ [.agent (.post 0 0 4), .agent tick, .agent tick, .agent tick])
      (by decide +kernel)
  simp only [Prod.mk.injEq] at hst
  exact ⟨s, hs, hst.1, hst.2, balance hs hst.1 1⟩

end System

end AskUser
