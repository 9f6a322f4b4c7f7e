import AskUser.JournalGrowth
import AskUser.RequestLife
import AskUser.TalkerSteps

/-!
# Where requests come from, and what is sent about them

Facts about the whole history of a run, for the exchange with cynara.

* `Records`: every request object stands at the position at which it was handed in, and was handed
  in for a message that cynara had sent before;
* `sends` are the calls of `sendResponse` so far, in order. Each is about an Action with its id, and
  no two are about the same (`Inv.about`, `Inv.sends_nodup`).
-/

namespace AskUser
open Agent CynaraTalker RequestType Objects ByteText

namespace System

variable {L : Limits} {s s' : System} {e : Event} {i : RequestId}

/-! ### The requests, and what cynara has sent -/

/-- An Action with the id. -/
def isAction (i : RequestId) (r : Request) : Bool := r.type = RT_Action ∧ r.id = i

/-- A message of cynara that asks about the id. -/
def asksAbout (i : RequestId) (m : Message) : Bool := m.type = .ACTION ∧ m.id = i

/-- The Actions with the id that the thread has received and not yet handed in. -/
def holding (i : RequestId) : Point → ℕ
  | .construct type id => if type = .ACTION ∧ id = i then 1 else 0
  | .handle r => if isAction i r then 1 else 0
  | _ => 0

/-- No more Actions are handed in than were received. -/
def Asked (i : RequestId) (t : Thread) : Prop :=
  t.handed.countP (isAction i) + holding i t.point ≤ t.received.countP (asksAbout i)

theorem ThreadStep.asked (hs : ThreadStep s e s') (h : Asked i s.thread) : Asked i s'.thread := by
  have hclose : isAction i closeRequest = false := by simp [isAction, closeRequest]
  unfold Asked at h ⊢
  cases hs with
  | initialized hpoint | initFailed hpoint | receiveFailed hpoint | finished hpoint
  | announced hpoint =>
    simpa [hpoint, holding, goto] using h
  | closesEarly hpoint | closes hpoint =>
    simpa [hpoint, holding, goto, hand, hclose] using h
  | receives m hpoint =>
    rw [Thread.obtain_frame]
    simp only [hpoint, holding] at h
    simp only [holding, List.countP_append, List.countP_singleton, asksAbout, decide_eq_true_eq]
    omega
  | dropped hpoint | constructThrows _ hpoint | handleThrows _ hpoint =>
    simp only [holding, goto]
    omega
  | @constructed type id rt bytes t hpoint htype hcopy =>
    rw [Thread.copyData_frame hcopy]
    simp only [hpoint, holding] at h
    have hsame : isAction i ⟨rt, id, bytes⟩ = decide (type = .ACTION ∧ id = i) := by
      cases type <;> simp only [cynaraType2AgentType, Option.some.injEq, reduceCtorEq] at htype <;>
        subst htype <;> simp [isAction]
    simpa [holding, hsame] using h
  | @handled r hpoint =>
    simp only [hpoint, holding] at h
    simp only [hand, holding, List.countP_append, List.countP_singleton]
    omega
  | released hpoint hfree | left hpoint hfree =>
    rw [Thread.freeData_frame hfree]
    simpa [hpoint, holding] using h
  | copyCrashes | freeCrashes =>
    simp only [holding]
    omega

/-- Before the connection is there nothing was received. -/
def Fresh (t : Thread) : Prop :=
  t.point = .agentInitialize ∨ t.point = .initFailed → t.received = []

theorem ThreadStep.fresh (hs : ThreadStep s e s') (h : Fresh s.thread) : Fresh s'.thread := by
  intro hpoint'
  cases hs with
  | initFailed hpoint => exact h (Or.inl hpoint)
  | _ => simp [goto, hand] at hpoint'

/-- Each request is stored at the address that is its position among the requests that were
handed in. -/
structure Lined (s : System) : Prop where
  size : s.agent.pc.isFinal = false → s.agent.store.objects.size = s.thread.handed.length
  handed : ∀ {p r}, .handed r ∈ s.agent.store.story p → s.thread.handed[p]? = some r

theorem lined_new : Lined new where
  size _ := rfl
  handed h := by simp [new, Agent.new, Requests.story] at h

/-- The main thread makes no requests. -/
theorem mainStep_size {c : Choice} {a a' : Agent} (hs : MainStep L c a a')
    (hfinal : a'.pc.isFinal = false) : a'.store.objects.size = a.store.objects.size := by
  cases hs with
  | clashed | exited | finished => simp [Pc.isFinal] at hfinal
  | recorded _ _ _ hl => rw [Requests.insert_eq hl]
  | _ => rfl

theorem mainStep_handed {c : Choice} {a : Agent} {p : RequestPtr} {r : Request}
    (hr : .handed r ∈ (mainStep L c a).store.story p) : .handed r ∈ a.store.story p := by
  obtain ⟨new, hstory, hnew⟩ := story_of_written (mainStep_written L c a) p
  rw [hstory, List.mem_append] at hr
  refine hr.resolve_right fun hmem => ?_
  simpa [NotHanded, RequestAct.handedRequest] using hnew _ hmem

/-- A request is handed in at the next address. -/
theorem Lined.hand (h : Lined s) (hfinal : s.agent.pc.isFinal = false) (r : Request) :
    Lined (s.hand r) where
  size _ := by simp [System.hand, requestHandler, Requests.hand, h.size hfinal]
  handed := by
    intro p r' hr'
    simp only [System.hand, requestHandler, Requests.story_hand] at hr' ⊢
    have hsize := h.size hfinal
    split_ifs at hr' with hp
    · subst hp
      rcases List.mem_append.1 hr' with hr' | hr'
      · have := h.handed hr'
        simp [hsize] at this
      · obtain rfl : r' = r := by simpa using hr'
        simp [hsize]
    · have hold := h.handed hr'
      rw [List.getElem?_append_left (List.getElem?_eq_some_iff.1 hold).1]
      exact hold

theorem Lined.same (h : Lined s) (hstore : s'.agent.store = s.agent.store)
    (hpc : s'.agent.pc = s.agent.pc) (hhanded : s'.thread.handed = s.thread.handed) : Lined s' where
  size := by
    rw [hpc, hstore, hhanded]
    exact h.size
  handed hr := by
    rw [hstore] at hr
    rw [hhanded]
    exact h.handed hr

theorem ThreadStep.lined (hs : ThreadStep s e s') (h : Lined s)
    (hfinal : s.agent.pc.isFinal = false) : Lined s' := by
  cases hs with
  | closesEarly | closes => exact (h.hand hfinal closeRequest).same rfl rfl rfl
  | @handled r hpoint => exact (h.hand hfinal r).same rfl rfl rfl
  | receives m => exact h.same rfl rfl (by rw [Thread.obtain_frame])
  | constructed _ _ hcopy => exact h.same rfl rfl (by rw [Thread.copyData_frame hcopy])
  | released _ hfree | left _ hfree => exact h.same rfl rfl (by rw [Thread.freeData_frame hfree])
  | _ => exact h.same rfl rfl rfl

/-- Where the requests come from. -/
structure Records (s : System) : Prop where
  lined : Lined s
  asked : ∀ i, Asked i s.thread
  fresh : Fresh s.thread

theorem records {cond : Label → System → Prop} (h : Reachable L cond s) : Records s := by
  induction h with
  | start => exact ⟨lined_new, fun i => Nat.le_refl _, fun _ => rfl⟩
  | @step s s' l hr _ hs ih =>
    cases l with
    | agent l =>
      obtain ⟨hl, a, ha, rfl⟩ := step_agent hs
      have hsound : Sound s := (sound hr).resolve_left fun hcrash => by
        rw [step_final (by rw [hcrash]; rfl)] at hs
        simp at hs
      refine ⟨?_, ih.asked, ih.fresh⟩
      obtain ⟨hfinal, ⟨c, -, rfl, hmain⟩ | ⟨-, helse⟩⟩ := agentStep_cases hsound.inv hl ha
      · exact ⟨fun hfinal' => (mainStep_size hmain hfinal').trans (ih.lined.size hfinal),
          fun hr => ih.lined.handed (mainStep_handed hr)⟩
      · exact ih.lined.same helse.store helse.pc rfl
    | thread e =>
      obtain ⟨hfinal, hstep⟩ := step_thread hs
      exact ⟨hstep.lined ih.lined hfinal, fun i => hstep.asked (ih.asked i), hstep.fresh ih.fresh⟩

/-- Also after a crash, the requests are those of a state in which the invariant holds. -/
theorem exists_inv {cond : Label → System → Prop} (h : Reachable L cond s) :
    ∃ a, Inv a ∧ a.store = s.agent.store := by
  rcases sound h with hcrash | hsound
  · cases h with
    | start => simp [new, Agent.new] at hcrash
    | @step s₀ _ l hr _ hs =>
      have hsound : Sound s₀ := (sound hr).resolve_left fun hcrash => by
        rw [step_final (by rw [hcrash]; rfl)] at hs
        simp at hs
      cases l with
      | agent l =>
        obtain ⟨hl, a, ha, rfl⟩ := step_agent hs
        exact ⟨s₀.agent, hsound.inv, (step_store_of_crash hsound.inv ha hcrash).symm⟩
      | thread e =>
        obtain ⟨hfinal, hstep⟩ := step_thread hs
        rw [hstep.agent.1] at hcrash
        simp [show s₀.agent.pc = _ from hcrash, Pc.isFinal] at hfinal
  · exact ⟨s.agent, hsound.inv, rfl⟩

end System

/-! ### What is sent -/

namespace Agent

variable {L : Limits} {c : Choice} {a a' : Agent} {p : RequestPtr} {x : Sent}

/-- The calls of `sendResponse` so far, each with the request that it is about. -/
def sends (a : Agent) : List (RequestPtr × Sent) :=
  a.store.journal.select fun e => match e with
    | .sent x => some x
    | _ => none

theorem mem_sends : (p, x) ∈ sends a ↔ .sent x ∈ a.store.story p := by
  rw [sends, Journal.mem_select]
  constructor
  · rintro ⟨e, he, hx⟩
    split at hx
    · exact Option.some.inj hx ▸ he
    · simp at hx
  · intro hx
    exact ⟨_, hx, rfl⟩

/-- A response is about an Action with its id, and the only one about it. -/
theorem Inv.about (h : Inv a) (hx : .sent x ∈ a.store.story p) :
    ∃ r, .handed r ∈ a.store.story p ∧ r.type = RT_Action ∧ r.id = x.requestId ∧
      x.requestType ≠ RT_Close ∧ responses (a.store.story p) = [x] := by
  cases hp : a.store.objects.cell p with
  | some r =>
    obtain ⟨pl, hpl⟩ := h.owned.live.1 hp
    rw [← mem_responses, hpl.no_response] at hx
    exact absurd hx List.not_mem_nil
  | none =>
    rcases h.owned.dead hp with hnil | ⟨r, hend⟩
    · simp [hnil] at hx
    · refine ⟨r, ?_⟩
      generalize a.store.story p = story at hend hx
      cases hend with
      | startFailed ht =>
        obtain rfl : x = startFailure r := by simpa using hx
        exact ⟨by simp, ht, rfl, by simp [startFailure], rfl⟩
      | answered q ht hq =>
        obtain rfl : x = answer r q := by simpa using hx
        exact ⟨by simp, ht, rfl, by simp [answer], rfl⟩
      | cancelled k ht =>
        obtain rfl : x = cancellation r k := by simpa using hx
        exact ⟨by simp, ht, rfl, by simp [cancellation], rfl⟩
      | closed | cancel | duplicate | thrown | drained | shutDown => simp at hx

/-- No request is answered twice. -/
theorem Inv.sends_nodup (h : Inv a) : ((sends a).map Prod.fst).Nodup := by
  rw [List.nodup_iff_count_le_one]
  intro p
  have hcount : ((sends a).map Prod.fst).count p = (responses (a.store.story p)).length :=
    Journal.count_select
  rw [hcount]
  cases hresponses : responses (a.store.story p) with
  | nil => exact Nat.zero_le 1
  | cons x rest =>
    have hx : .sent x ∈ a.store.story p := by
      rw [← mem_responses, hresponses]
      exact List.mem_cons_self
    obtain ⟨-, -, -, -, -, hone⟩ := h.about hx
    rw [hresponses] at hone
    rw [hone]
    rfl

theorem sends_of_store (h : a'.store = a.store) : sends a' = sends a := by
  rw [sends, h, sends]

theorem sends_append (new : List (RequestPtr × RequestAct))
    (h : a'.store.journal.entries = a.store.journal.entries ++ new) :
    sends a' = sends a ++ sends { a with store.journal := ⟨new⟩ } :=
  Journal.select_append h

/-- What is no response adds no call. -/
theorem sends_silent (new : List (RequestPtr × RequestAct))
    (h : a'.store.journal.entries = a.store.journal.entries ++ new)
    (hnew : ∀ e ∈ new, ∀ x, e.2 ≠ .sent x) : sends a' = sends a := by
  rw [sends_append new h]
  have hnil : sends { a with store.journal := ⟨new⟩ } = [] := by
    refine List.filterMap_eq_nil_iff.2 fun e he => ?_
    have hsilent := hnew e he
    cases he2 : e.2 with
    | sent x => exact absurd he2 (hsilent x)
    | _ => rfl
  rw [hnil, List.append_nil]

/-- Calls are added at the end. -/
theorem sends_main : ∃ new, sends (mainStep L c a) = sends a ++ new := by
  obtain ⟨new, hentries, -⟩ := mainStep_written L c a
  exact ⟨_, sends_append new hentries⟩

theorem sends_hand (r : Request) : sends (requestHandler a r) = sends a :=
  sends_silent [(a.store.objects.size, .handed r)] rfl (by simp)

/-- The thread of `CynaraTalker` sends nothing. -/
theorem sends_threadStep {s s' : System} {e : Event} (hs : System.ThreadStep s e s') :
    sends s'.agent = sends s.agent := by
  rcases hs.agent.2 with hstore | ⟨r, hstore⟩
  · exact sends_of_store hstore
  · exact (sends_of_store (a := requestHandler s.agent r) hstore).trans (sends_hand r)

end Agent

end AskUser
