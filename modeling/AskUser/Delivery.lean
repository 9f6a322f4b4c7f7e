import AskUser.Buffers
import AskUser.RequestLife

/-!
# From cynara to the main thread

Two accounts, one for each end of `m_incomingRequests`, that no step changes.

* `Queued`: what was handed in is what the main thread has taken, and then what is still queued;
* `Accounted`: what was received is what was handed in, and then what the thread has in hand. This
  one needs a run without exceptions other than `TypeException`.

`delivery` puts them together, with the buffers of `Buffers`.
-/

namespace AskUser
open Agent CynaraTalker RequestType Objects ByteText

namespace System

variable {L : Limits} {s s' : System} {e : Event}

/-! ### The queue -/

/-- The requests in `m_incomingRequests`. -/
def queue (a : Agent) : List Request := a.store.incomingRequests.filterMap a.store.objects.cell

/-- What was taken and what is queued are what was handed in. After the end of the run, where
`finish` has emptied the queue, something is left over. -/
structure Queued (s : System) : Prop where
  taken : ∃ rest, s.taken ++ rest = s.thread.handed ∧
    (s.agent.pc.isFinal = false → rest = queue s.agent)
  current : ∀ p, s.agent.pc = .request p → ∃ r before, s.agent.store.objects.cell p = some r ∧
    s.taken = before ++ [r]

theorem queued_new : Queued new where
  taken := ⟨[], rfl, fun _ => rfl⟩
  current p hp := by simp [new, Agent.new] at hp

theorem queue_hand {a : Agent} (h : Inv a) (r : Request) :
    queue (requestHandler a r) = queue a ++ [r] := by
  show (a.store.incomingRequests ++ [a.store.objects.size]).filterMap
    (a.store.objects.alloc r).cell = _
  rw [List.filterMap_append]
  congr 1
  · refine List.filterMap_congr fun p hp => ?_
    obtain ⟨r', hr'⟩ := h.owned.queued.1 hp
    have hlt := Heap.lt_size (h.owned.live.2 ⟨_, hr'⟩)
    simp [Nat.ne_of_lt hlt]
  · simp

/-- A request that stays in the queue stays as it was handed in. -/
theorem cell_eq {a a' : Agent} (h : Inv a) (h' : Inv a') {p : RequestPtr}
    (hstory : ∀ x, x ∈ a.store.story p → x ∈ a'.store.story p)
    (hp : p ∈ a.store.incomingRequests) (hp' : p ∈ a'.store.incomingRequests) :
    a'.store.objects.cell p = a.store.objects.cell p := by
  obtain ⟨r, hr⟩ := h.owned.queued.1 hp
  obtain ⟨r', hr'⟩ := h'.owned.queued.1 hp'
  have hmem : .handed r ∈ a'.store.story p := hstory _ (by rw [hr.of_queued]; simp)
  obtain rfl := hr'.first hmem
  rw [h.owned.live.2 ⟨_, hr⟩, h'.owned.live.2 ⟨_, hr'⟩]

theorem mainStep_popped {c : Choice} {a : Agent} {p : RequestPtr} {rest : List RequestPtr}
    (hpc : a.pc = .inner) (hq : a.store.incomingRequests = p :: rest) : mainStep L c a =
      { a with
        store := { a.store with incomingRequests := rest }.note p .popped
        pc := .request p } := by
  simp only [mainStep, hpc, call]
  rw [Fallible.get_bind]
  simp only [hq]
  rfl

/-- Any other step of the main thread leaves the queue alone, until the end of the run. -/
theorem mainStep_not_popped {c : Choice} {a a' : Agent} (hs : MainStep L c a a')
    (hempty : a.pc = .inner → a.store.incomingRequests = []) (hfinal : a'.pc.isFinal = false) :
    a'.store.incomingRequests = a.store.incomingRequests ∧ ∀ p, a'.pc ≠ .request p := by
  cases hs with
  | clashed | exited | finished => simp [Pc.isFinal] at hfinal
  | popped hpc hq => exact absurd (hempty hpc) (by simp [hq])
  | @moves pc hm =>
    refine ⟨rfl, fun p => ?_⟩
    generalize a.pc = pc₀ at hm
    cases hm <;> simp
  | recorded _ _ _ hl => exact ⟨by rw [Requests.insert_eq hl], by simp⟩
  | start | closed | cancelled | duplicate | unknownCancel | thrown | startFailed
  | poppedResponse | answered | unmatched | cleaned => exact ⟨rfl, by simp⟩

theorem empty_of_not_popped {a : Agent}
    (h : ¬ ∃ p rest, a.pc = .inner ∧ a.store.incomingRequests = p :: rest) (hpc : a.pc = .inner) :
    a.store.incomingRequests = [] := by
  cases hq : a.store.incomingRequests with
  | nil => rfl
  | cons p rest => exact absurd ⟨p, rest, hpc, hq⟩ h

theorem taking_eq_none {l : Agent.Label} {a : Agent}
    (h : ∀ c, l = .main c → a.pc = .inner → a.store.incomingRequests = []) :
    taking l a = none := by
  unfold taking
  split
  · next c p rest hpc hq => exact absurd (h c rfl hpc) (by simp [hq])
  · rfl

/-- A step that touches neither the queue nor what the main thread processes. -/
theorem Queued.same (h : Queued s) (hstore : s'.agent.store = s.agent.store)
    (hpc : s'.agent.pc = s.agent.pc) (htaken : s'.taken = s.taken)
    (hhanded : s'.thread.handed = s.thread.handed) : Queued s' where
  taken := by
    obtain ⟨rest, hrest, hqueue⟩ := h.taken
    refine ⟨rest, by rw [htaken, hhanded, hrest], fun hfinal => ?_⟩
    rw [hqueue (hpc ▸ hfinal), queue, queue, hstore]
  current p hp := by
    rw [hstore, htaken]
    exact h.current p (hpc ▸ hp)

/-- The main thread takes the first request from the queue. -/
theorem Queued.pop (h : Queued s) (hinv : Inv s.agent) (c : Choice) {p : RequestPtr}
    {rest : List RequestPtr} (hpc : s.agent.pc = .inner)
    (hq : s.agent.store.incomingRequests = p :: rest) :
    Queued { s with
      agent := mainStep L c s.agent
      taken := s.taken ++ (taking (.main c) s.agent).toList } := by
  have hp : p ∈ s.agent.store.incomingRequests := hq ▸ List.mem_cons_self
  obtain ⟨r, hr⟩ := hinv.owned.queued.1 hp
  have hcell := hinv.owned.live.2 ⟨_, hr⟩
  have htaking : taking (.main c) s.agent = some r := by
    simp only [taking, hpc, hq]
    exact hcell
  rw [mainStep_popped hpc hq, htaking]
  obtain ⟨left, hleft, hqueue⟩ := h.taken
  refine ⟨⟨rest.filterMap s.agent.store.objects.cell, ?_, fun _ => rfl⟩, fun q hpq => ?_⟩
  · rw [← hleft, hqueue (by rw [hpc]; rfl), queue, hq, List.filterMap_cons, hcell]
    simp
  · obtain rfl : p = q := by simpa using hpq
    exact ⟨r, s.taken, hcell, rfl⟩

theorem queue_main {c : Choice} {a a' : Agent} (hs : MainStep L c a a') (hinv : Inv a)
    (hinv' : a'.pc = .crashed .terminate ∨ Inv a')
    (hempty : a.pc = .inner → a.store.incomingRequests = []) (hfinal : a'.pc.isFinal = false) :
    queue a' = queue a := by
  replace hinv' : Inv a' := by
    rcases hinv' with hcrash | hinv'
    · simp [hcrash, Pc.isFinal] at hfinal
    · exact hinv'
  have hsame := (mainStep_not_popped hs hempty hfinal).1
  rw [queue, queue, hsame]
  refine List.filterMap_congr fun p hp => ?_
  exact cell_eq hinv hinv' (fun x hx => hs.story hfinal hx) hp (hsame ▸ hp)

/-- Any other step of the main thread. -/
theorem Queued.main (h : Queued s) (hinv : Inv s.agent) {c : Choice} {a : Agent}
    (hs : MainStep L c s.agent a) (hinv' : a.pc = .crashed .terminate ∨ Inv a)
    (hempty : s.agent.pc = .inner → s.agent.store.incomingRequests = [])
    (hfinal : s.agent.pc.isFinal = false) : Queued { s with agent := a } where
  taken := by
    obtain ⟨rest, hrest, hqueue⟩ := h.taken
    refine ⟨rest, hrest, fun hfinal' => ?_⟩
    rw [hqueue hfinal, queue_main hs hinv hinv' hempty hfinal']
  current p hp := by
    have hfinal' : a.pc.isFinal = false := by
      rw [show a.pc = .request p from hp]
      rfl
    exact absurd hp ((mainStep_not_popped hs hempty hfinal').2 p)

/-- **A step of the agent** keeps the account. -/
theorem Queued.agentStep (h : Queued s) (hinv : Inv s.agent) {l : Agent.Label}
    (hl : ∀ e, l ≠ .talker e) {a : Agent} (hs : Agent.step L l s.agent = some a) :
    Queued { s with agent := a, taken := s.taken ++ (taking l s.agent).toList } := by
  obtain ⟨hfinal, ⟨c, rfl, rfl, hmain⟩ | ⟨hnot, helse⟩⟩ := agentStep_cases hinv hl hs
  · by_cases hpop : ∃ p rest, s.agent.pc = .inner ∧ s.agent.store.incomingRequests = p :: rest
    · obtain ⟨p, rest, hpc, hq⟩ := hpop
      exact h.pop hinv c hpc hq
    · have hempty := empty_of_not_popped hpop
      rw [taking_eq_none fun _ _ => hempty]
      simpa using h.main hinv hmain (step_inv hinv hs) hempty hfinal
  · rw [taking_eq_none fun c hc => absurd hc (hnot c)]
    exact h.same helse.store helse.pc (List.append_nil _) rfl

/-- A request is handed in. -/
theorem Queued.hand (h : Queued s) (hinv : Inv s.agent) (r : Request) : Queued (s.hand r) where
  taken := by
    obtain ⟨rest, hrest, hqueue⟩ := h.taken
    refine ⟨rest ++ [r], ?_, fun hfinal => ?_⟩
    · rw [← List.append_assoc]
      exact congrArg (· ++ [r]) hrest
    · rw [hqueue hfinal]
      exact (queue_hand hinv r).symm
  current p hp := by
    obtain ⟨r', before, hcell, htaken⟩ := h.current p hp
    refine ⟨r', before, ?_, htaken⟩
    show (if p = s.agent.store.objects.size then some r else s.agent.store.objects.cell p) = some r'
    rw [if_neg (Nat.ne_of_lt (Heap.lt_size hcell)), hcell]

/-- **A statement of the thread** keeps the account. -/
theorem ThreadStep.queued (hs : ThreadStep s e s') (hinv : Inv s.agent) (h : Queued s) :
    Queued s' := by
  cases hs with
  | closesEarly | closes => exact (h.hand hinv closeRequest).same rfl rfl rfl rfl
  | @handled r => exact (h.hand hinv r).same rfl rfl rfl rfl
  | receives m => exact h.same rfl rfl rfl (by rw [Thread.obtain_frame])
  | constructed _ _ hcopy =>
    exact h.same rfl rfl rfl (by rw [Thread.copyData_frame hcopy])
  | released _ hfree | left _ hfree =>
    exact h.same rfl rfl rfl (by rw [Thread.freeData_frame hfree])
  | _ => exact h.same rfl rfl rfl rfl

theorem queued {cond : Label → System → Prop} (h : Reachable L cond s) : Queued s := by
  induction h with
  | start => exact queued_new
  | step l hr _ hs ih =>
    have hsound := sound_of_step hr hs
    cases l with
    | agent l =>
      obtain ⟨hl, a, ha, rfl⟩ := step_agent hs
      exact ih.agentStep hsound.inv hl ha
    | thread e => exact (step_thread hs).2.queued hsound.inv ih

/-! ### The thread -/

/-- The requests for the messages of a known type. -/
def accepted (messages : List Message) : List Request :=
  messages.filterMap fun m =>
    (cynaraType2AgentType m.type).map fun type => ⟨type, m.id, m.data.getD []⟩

/-- The Close after an error. -/
def closing (t : Thread) : List Request := if t.failed then [closeRequest] else []

/-- The bytes behind `data`. -/
def content (t : Thread) : Bytes := (t.data.bind t.buffers.cell).getD []

/-- What the thread has received, or has to say, and not handed in yet. -/
def inHand (t : Thread) : List Request :=
  match t.point with
  | .construct type id =>
    ((cynaraType2AgentType type).map fun type => ⟨type, id, content t⟩).toList
  | .handle r => [r]
  | .initFailed | .receiveFailed => [closeRequest]
  | _ => []

/-- The statements after an error. -/
def stopped : Point → Bool
  | .initFailed | .receiveFailed | .leave | .finish | .setValue | .returned => true
  | _ => false

/-- What was received is what was handed in and what is in hand; only an error ends the loop. -/
structure Accounted (t : Thread) : Prop where
  handed : t.handed ++ inHand t = accepted t.received ++ closing t
  failed : t.failed = stopped t.point

theorem accepted_append (messages : List Message) (m : Message) :
    accepted (messages ++ [m]) = accepted messages ++
      ((cynaraType2AgentType m.type).map fun type =>
        (⟨type, m.id, m.data.getD []⟩ : Request)).toList := by
  rw [accepted, List.filterMap_append, accepted]
  cases htype : cynaraType2AgentType m.type <;> simp [htype]

theorem content_obtain (t : Thread) (m : Message) : content (t.obtain m) = m.data.getD [] := by
  unfold Thread.obtain
  cases m.data with
  | none => rfl
  | some bytes => simp [content]

theorem content_eq {t t' : Thread} {bytes : PluginData} (h : t.copyData = some (bytes, t')) :
    content t = bytes := by
  obtain ⟨hdata, rfl, -⟩ | ⟨b, hdata, hcell, -⟩ := Thread.copyData_cases h
  · simp [content, hdata]
  · simp [content, hdata, hcell]

/-- A statement that neither receives nor hands in anything. -/
theorem Accounted.same {t t' : Thread} (h : Accounted t) (hhanded : t'.handed = t.handed)
    (hreceived : t'.received = t.received) (hfailed : t'.failed = t.failed)
    (hinHand : inHand t' = inHand t) (hstopped : stopped t'.point = stopped t.point) :
    Accounted t' where
  handed := by rw [hhanded, hinHand, h.handed, hreceived, closing, closing, hfailed]
  failed := by rw [hfailed, hstopped, h.failed]

/-- What the thread has in hand is handed in. -/
theorem Accounted.hand {t t' : Thread} (h : Accounted t) {r : Request} (hr : inHand t = [r])
    (hhanded : t'.handed = t.handed ++ [r]) (hreceived : t'.received = t.received)
    (hfailed : t'.failed = t.failed) (hinHand : inHand t' = [])
    (hstopped : stopped t'.point = stopped t.point) : Accounted t' where
  handed := by
    rw [hhanded, hinHand, List.append_nil, ← hr, h.handed, hreceived, closing, closing, hfailed]
  failed := by rw [hfailed, hstopped, h.failed]

/-- An error, at a statement of the loop with nothing in hand. -/
theorem Accounted.error {t t' : Thread} (h : Accounted t) (hnil : inHand t = [])
    (hloop : stopped t.point = false) (hhanded : t'.handed = t.handed)
    (hreceived : t'.received = t.received) (hfailed : t'.failed = true)
    (hinHand : inHand t' = [closeRequest]) (hstopped : stopped t'.point = true) :
    Accounted t' where
  handed := by
    have hhanded' := h.handed
    rw [hnil, closing, h.failed, hloop, if_neg Bool.false_ne_true, List.append_nil,
      List.append_nil] at hhanded'
    rw [hhanded, hinHand, hhanded', hreceived, closing, hfailed, if_pos rfl]
  failed := by rw [hfailed, hstopped]

/-- `cynara_agent_get_request` succeeds. -/
theorem Accounted.receive {t : Thread} (h : Accounted t) (hpoint : t.point = .getRequest)
    (m : Message) : Accounted { t.obtain m with point := .construct m.type m.id } := by
  obtain ⟨hhanded, hfailed⟩ := h
  simp only [inHand, hpoint, stopped] at hhanded hfailed
  have hclosing : closing t = [] := by simp [closing, hfailed]
  rw [hclosing, List.append_nil, List.append_nil] at hhanded
  refine ⟨?_, by rw [Thread.obtain_frame]; exact hfailed⟩
  show (t.obtain m).handed ++ ((cynaraType2AgentType m.type).map fun type =>
    (⟨type, m.id, content (t.obtain m)⟩ : Request)).toList =
      accepted (t.obtain m).received ++ closing (t.obtain m)
  rw [content_obtain, Thread.obtain_frame]
  show t.handed ++ _ = accepted (t.received ++ [m]) ++ closing t
  rw [hclosing, List.append_nil, hhanded, accepted_append]

/-- **A statement of the thread** keeps the account. -/
theorem ThreadStep.accounted (hs : ThreadStep s e s') (hquiet : Quiet (.thread e) s)
    (hbuffers : Buffers True s.thread) (h : Accounted s.thread) : Accounted s'.thread := by
  cases hs with
  | initialized hpoint | finished hpoint | announced hpoint =>
    exact h.same rfl rfl rfl (by simp [inHand, goto, hpoint]) (by simp [stopped, goto, hpoint])
  | initFailed hpoint | receiveFailed hpoint =>
    exact h.error (by simp [inHand, hpoint]) (by simp [stopped, hpoint]) rfl rfl rfl rfl rfl
  | closesEarly hpoint | closes hpoint =>
    exact h.hand (r := closeRequest) (by simp [inHand, hpoint]) rfl rfl rfl rfl
      (by simp [stopped, goto, hpoint])
  | receives m hpoint => exact h.receive hpoint m
  | dropped hpoint htype =>
    exact h.same rfl rfl rfl (by simp [inHand, hpoint, htype]) (by simp [stopped, hpoint])
  | constructed hpoint htype hcopy =>
    -- what the constructor copies is what was in hand as the buffer in `data`
    have hcontent := content_eq hcopy
    rw [Thread.copyData_frame hcopy]
    exact h.same rfl rfl rfl (by simp [inHand, hpoint, htype, hcontent])
      (by simp [stopped, hpoint])
  | constructThrows | handleThrows => exact absurd hquiet (by simp [Quiet])
  | handled hpoint =>
    exact h.hand (by simp [inHand, hpoint]) rfl rfl rfl rfl (by simp [stopped, hpoint])
  | released hpoint hfree | left hpoint hfree =>
    rw [Thread.freeData_frame hfree]
    exact h.same rfl rfl rfl (by simp [inHand, hpoint]) (by simp [stopped, hpoint])
  | copyCrashes hpoint hcopy =>
    exact absurd hcopy (hbuffers.copyData_ne_none (by rw [hpoint]; rfl))
  | freeCrashes hpoint hfree =>
    refine absurd hfree (hbuffers.freeData_ne_none ?_)
    rcases hpoint with hpoint | hpoint <;> rw [hpoint] <;> rfl

theorem accounted (h : Reachable L Quiet s) : Accounted s.thread := by
  induction h with
  | start => exact ⟨rfl, rfl⟩
  | step l hr hquiet hs ih =>
    cases l with
    | agent l =>
      obtain ⟨-, a, -, rfl⟩ := step_agent hs
      exact ih
    | thread e =>
      exact (step_thread hs).2.accounted hquiet (buffers (fun _ _ _ hq => hq) hr) ih

/-! ### Delivery -/

/-- The main thread is done with a request: it was taken from the queue, and then recorded in
`m_requests` or disposed of. -/
def Processed (story : List RequestAct) : Prop :=
  .popped ∈ story ∧ (.recorded ∈ story ∨ .deleted ∈ story)

/-- What the thread delivers, and what becomes of the buffers. -/
structure Delivers (s : System) : Prop where
  taken : s.taken <+: accepted s.thread.received ++ closing s.thread
  /-- only an error ends the loop -/
  loops : stopped s.thread.point = s.thread.failed
  closed : closeRequest ∈ s.taken →
    s.taken = accepted s.thread.received ++ [closeRequest] ∧
      (s.agent.pc.isFinal = false → ∀ p r, .handed r ∈ s.agent.store.story p → r.type ≠ RT_Close →
        Processed (s.agent.store.story p))
  intact : s.thread.point ≠ .crashed
  buffers : ∀ b, s.thread.story b = [] ∨ Spent True (s.thread.story b) ∨
    s.thread.data = some b ∧ .freed ∉ s.thread.story b ∧ s.thread.point.holds

theorem accepted_ne_close {messages : List Message} : closeRequest ∉ accepted messages := by
  intro h
  obtain ⟨m, -, hm⟩ := List.mem_filterMap.1 h
  obtain ⟨type, htype, hr⟩ := Option.map_eq_some_iff.1 hm
  have hclose : type = RT_Close := congrArg Request.type hr
  subst hclose
  unfold cynaraType2AgentType at htype
  split at htype <;> simp at htype

/-- When the Close is taken, everything is. -/
theorem taken_of_close {messages : List Message} {t : Thread} {rest taken : List Request}
    (hsplit : taken ++ rest = accepted messages ++ closing t) (hclose : closeRequest ∈ taken) :
    rest = [] ∧ closing t = [closeRequest] := by
  have hmem : closeRequest ∈ accepted messages ++ closing t := by
    rw [← hsplit]
    exact List.mem_append_left _ hclose
  have hclosing : closing t = [closeRequest] := by
    have := (List.mem_append.1 hmem).resolve_left accepted_ne_close
    unfold closing at this ⊢
    split_ifs at this ⊢
    · rfl
    · simp at this
  refine ⟨?_, hclosing⟩
  rw [hclosing] at hsplit
  rcases List.eq_nil_or_concat rest with hnil | ⟨rest', x, rfl⟩
  · exact hnil
  · -- something taken before the last one would be a message that was accepted
    rw [List.concat_eq_append, ← List.append_assoc] at hsplit
    have hinit := (List.append_inj' hsplit rfl).1
    exact absurd (hinit ▸ List.mem_append_left _ hclose) accepted_ne_close

theorem incomingRequests_eq_nil {a : Agent} (h : Inv a) (hqueue : queue a = []) :
    a.store.incomingRequests = [] := by
  rw [List.eq_nil_iff_forall_not_mem]
  intro p hp
  obtain ⟨r, hr⟩ := h.owned.queued.1 hp
  have hnone := List.filterMap_eq_nil_iff.1 hqueue p hp
  rw [h.owned.live.2 ⟨_, hr⟩] at hnone
  exact absurd hnone (by simp)

theorem processed_of_ended {exc : Prop} {r : Request} {story : List RequestAct}
    (h : Ended exc False r story) (hr : r.type ≠ RT_Close) : Processed story := by
  cases h with
  | closed htype => exact absurd htype hr
  | drained hshut => exact hshut.elim
  | cancel | duplicate | startFailed | answered | cancelled | thrown | shutDown =>
    simp [Processed]

/-- When the Close is taken, every other request is processed. -/
theorem processed_of_close (hinv : Inv s.agent) (h : Queued s)
    (hfinal : s.agent.pc.isFinal = false) (hqueue : queue s.agent = [])
    (hlast : ∃ before, s.taken = before ++ [closeRequest]) {p : RequestPtr} {r : Request}
    (hr : .handed r ∈ s.agent.store.story p) (htype : r.type ≠ RT_Close) :
    Processed (s.agent.store.story p) := by
  rcases hinv.handed hr with ⟨hcell, pl, hpl⟩ | ⟨-, hend⟩
  · cases pl with
    | queued =>
      have hp := hinv.owned.queued.2 ⟨r, hpl⟩
      rw [incomingRequests_eq_nil hinv hqueue] at hp
      exact absurd hp List.not_mem_nil
    | processing =>
      have hpc := pc_request_iff.2 (hinv.owned.processing.2 ⟨r, hpl⟩)
      obtain ⟨r', before, hcell', htaken⟩ := h.current p hpc
      obtain ⟨before', htaken'⟩ := hlast
      obtain rfl : r = r' := Option.some.inj (hcell.symm.trans hcell')
      have hclose := (List.append_inj' (htaken.symm.trans htaken') rfl).2
      simp only [List.cons.injEq, and_true] at hclose
      exact absurd (congrArg Request.type hclose) htype
    | pending =>
      rw [hpl.of_pending.2]
      simp [Processed]
  · exact processed_of_ended (hend.mono id (by simp [hfinal])) htype

/-- **Delivery.** In every run without exceptions other than `TypeException`, what the main thread
has taken is a prefix of what was received and accepted, and of one Close after an error; once the
Close is taken everything before it is processed; and every buffer is freed once, that of an
accepted message after it was copied. -/
theorem delivery (h : Reachable L Quiet s) : Delivers s := by
  have hbuffers : Buffers True s.thread := buffers (fun _ _ _ hq => hq) h
  have hqueued := queued h
  obtain ⟨hhanded, hfailed⟩ := accounted h
  obtain ⟨rest, hrest, hqueue⟩ := hqueued.taken
  have hsplit : s.taken ++ (rest ++ inHand s.thread) =
      accepted s.thread.received ++ closing s.thread := by
    rw [← List.append_assoc, hrest, hhanded]
  refine ⟨⟨_, hsplit⟩, hfailed.symm, fun hclose => ?_, hbuffers.intact, fun b => ?_⟩
  · obtain ⟨hnil, hclosing⟩ := taken_of_close hsplit hclose
    rw [hnil, List.append_nil, hclosing] at hsplit
    refine ⟨hsplit, fun hfinal p r hr htype => ?_⟩
    rcases sound h with hcrash | hsound
    · simp [hcrash, Pc.isFinal] at hfinal
    · exact processed_of_close hsound.inv hqueued hfinal
        ((hqueue hfinal).symm.trans (List.append_eq_nil_iff.1 hnil).1) ⟨_, hsplit⟩ hr htype
  · cases hcell : s.thread.buffers.cell b with
    | none => exact (hbuffers.dead b hcell).imp_right Or.inl
    | some bytes =>
      obtain ⟨hdata, hheld⟩ := hbuffers.live hcell
      refine Or.inr (Or.inr ⟨hdata, hheld.not_freed⟩)

/-- A message of an unknown type, an Action and an error, and the main thread takes them. -/
def errorRun : List Label :=
  [.agent tick, .thread (.agentInitialize true),
    .thread (.getRequest (some ⟨.other 7, 5, some [1]⟩)), .thread (.construct none),
    .thread .proceed,
    .thread (.getRequest (some ⟨.ACTION, 1, some question⟩)), .thread (.construct none),
    .thread (.handle none), .thread .proceed, .thread (.getRequest none), .thread .proceed] ++
  List.replicate 7 (.agent tick)

theorem delivery_error : ∃ s, (Reachable .lp64 Quiet s ∧
    s.taken = [⟨RT_Action, 1, question⟩, closeRequest]) ∧ Delivers s := by
  obtain ⟨s, hs, htaken⟩ : ∃ s, Reachable .lp64 Quiet s ∧
      s.taken = [⟨RT_Action, 1, question⟩, closeRequest] :=
    Run.Reachable.exists_of_exec errorRun (by decide +kernel)
  exact ⟨s, ⟨hs, htaken⟩, delivery hs⟩

/-- The buffer of the dropped message is freed, and was never copied. -/
theorem freed_not_copied_dropped : ∃ s, Reachable .lp64 Quiet s ∧
    .freed ∈ s.thread.story 0 ∧ .copied ∉ s.thread.story 0 := by
  obtain ⟨s, hs, hstory⟩ : ∃ s, Reachable .lp64 Quiet s ∧
      s.thread.story 0 = [.obtained (.other 7), .freed] :=
    Run.Reachable.exists_of_exec errorRun (by decide +kernel)
  exact ⟨s, hs, by simp [hstory], by simp [hstory]⟩

end System

end AskUser
