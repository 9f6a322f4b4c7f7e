import AskUser.Buffers
import AskUser.Records

/-!
# The connection to cynara

`CynaraTalker::sendResponse` (`CynaraTalker.cpp`), with `m_cynara`, over the `System`: what becomes
of the responses that the main thread sends.

* `Connection` puts `m_cynara` and the calls of `sendResponse` next to the system. The pointer is
  set by `cynara_agent_initialize` and cleared after `cynara_agent_finish`;
* `answers_in_order`: the responses are put on the connection in the order in which they were sent,
  until it is finished; those after that are dropped, and no other;
* `answered_once`: cynara gets no more responses with an id than it has sent Actions with it.
-/

namespace AskUser
open Agent CynaraTalker RequestType Objects ByteText

namespace CynaraTalker

/-- `none` is the `TypeException`. -/
def agentType2CynaraType : RequestType → Option CynaraMsgType
  | RT_Action => some .ACTION
  | RT_Cancel => some .CANCEL
  | RT_Close => none

/-- The arguments of `cynara_agent_put_response`; without data the pointer is null. -/
structure Put where
  type : CynaraMsgType
  id : RequestId
  data : Option Bytes
  deriving DecidableEq

/-- `sendResponse`, where `success` says whether cynara takes the response: what is put, and the
result. -/
def sendResponse (connected success : Bool) (x : Sent) : Option Put × Bool :=
  if connected then
    match agentType2CynaraType x.requestType with
    -- the response is dropped
    | none => (none, false)
    | some type =>
      (some ⟨type, x.requestId, if x.data.length = 0 then none else some x.data⟩, success)
  else (none, false)

end CynaraTalker

/-- The system, with its end of the connection. -/
structure Connection where
  system : System
  /-- `m_cynara` is not null -/
  connected : Bool
  /-- the calls of `sendResponse`, with what was put and the result -/
  calls : List (Sent × Option Put × Bool)

namespace Connection

def new : Connection := ⟨.new, false, []⟩

/-- What a step of the system does to `m_cynara`. -/
def connects (l : System.Label) (s : System) (connected : Bool) : Bool :=
  match l, s.thread.point with
  | .thread (.agentInitialize true), _ => true
  | .thread .proceed, .finish => false
  | _, _ => connected

/-- A step of the system, with the calls of `sendResponse` in it. -/
def step (L : Limits) (l : System.Label × Bool) (w : Connection) : Option Connection :=
  (System.step L l.1 w.system).map fun s =>
    { system := s
      connected := connects l.1 w.system w.connected
      calls := w.calls ++ ((sends s.agent).drop (sends w.system.agent).length).map fun x =>
        (x.2, sendResponse w.connected l.2 x.2) }

/-- The states of the runs whose steps all satisfy a condition. -/
abbrev Reachable (L : Limits) (cond : System.Label × Bool → Connection → Prop) :
    Connection → Prop :=
  Run.Reachable (step L) cond new

/-- What was put on the connection, in order. -/
def puts (w : Connection) : List Put := w.calls.filterMap fun x => x.2.1

end Connection

/-! ### What is put -/

namespace Connection

variable {L : Limits} {w w' : Connection} {l : System.Label × Bool} {x : Sent}
  {cond : System.Label × Bool → Connection → Prop}

/-- The statements between `cynara_agent_initialize` and `cynara_agent_finish`. -/
def opened : Point → Bool
  | .getRequest | .construct _ _ | .handle _ | .release | .receiveFailed | .leave | .finish => true
  | _ => false

/-- What is put for a response while the connection is there. -/
def putOf (x : Sent) : Option Put := (CynaraTalker.sendResponse true true x).1

theorem sendResponse_connected (success : Bool) (hx : x.requestType ≠ RT_Close) :
    (CynaraTalker.sendResponse true success x).1 = putOf x ∧ (putOf x).isSome := by
  unfold putOf CynaraTalker.sendResponse
  cases hr : x.requestType with
  | RT_Close => exact absurd hr hx
  | RT_Action | RT_Cancel => exact ⟨rfl, rfl⟩

theorem putOf_id {y : Put} (h : putOf x = some y) : y.id = x.requestId := by
  unfold putOf CynaraTalker.sendResponse at h
  rw [if_pos rfl] at h
  split at h
  · simp at h
  · exact Option.some.inj h ▸ rfl

theorem connects_thread {s s' : System} {e : Event} (hs : System.ThreadStep s e s')
    (hpoint' : s'.thread.point ≠ .crashed) :
    connects (.thread e) s (opened s.thread.point) = opened s'.thread.point := by
  cases hs with
  | copyCrashes | freeCrashes => exact absurd rfl hpoint'
  | _ => simp_all [connects, opened, System.goto]

/-- A run of the connection is a run of the system. -/
theorem reachable_system (h : Reachable L cond w) : System.Reachable L Run.always w.system := by
  induction h with
  | start => exact .start
  | step l _ _ hs ih =>
    obtain ⟨s, hsys, rfl⟩ := Option.map_eq_some_iff.1 hs
    exact ih.step l.1 trivial hsys

theorem not_crashed (h : Reachable L cond w) : w.system.thread.point ≠ .crashed := by
  have hbuffers : Buffers False w.system.thread := System.buffers (by simp) (reachable_system h)
  exact hbuffers.intact

/-- The pointer is there between the two calls. -/
theorem connected_iff (h : Reachable L cond w) : w.connected = opened w.system.thread.point := by
  induction h with
  | start => rfl
  | @step w w' l hr hl hs ih =>
    have hpoint' : w'.system.thread.point ≠ .crashed := not_crashed (hr.step l hl hs)
    obtain ⟨s, hsys, rfl⟩ := Option.map_eq_some_iff.1 hs
    show connects l.1 w.system w.connected = opened s.thread.point
    rw [ih]
    obtain ⟨l, success⟩ := l
    cases l with
    | agent l =>
      obtain ⟨-, a, -, rfl⟩ := System.step_agent hsys
      rfl
    | thread e => exact connects_thread (System.step_thread hsys).2 hpoint'

/-- The responses so far are those that were put, and then those that were dropped. -/
structure Ordered (w : Connection) (done : List (Sent × Option Put × Bool)) (dropped : List Sent) :
    Prop where
  sent : (sends w.system.agent).map Prod.snd = done.map Prod.fst ++ dropped
  calls : w.calls = done ++ dropped.map fun x => (x, none, false)
  put : ∀ x ∈ done, x.1.requestType ≠ RT_Close ∧ x.2.1 = putOf x.1
  finished : dropped ≠ [] → w.system.thread.received ≠ [] ∧ opened w.system.thread.point = false

/-- A step of the system adds calls at the end. -/
theorem sends_step {s s' : System} {l : System.Label} (hs : System.step L l s = some s') :
    ∃ new, sends s'.agent = sends s.agent ++ new := by
  have same : ∀ {a' : Agent}, sends a' = sends s.agent → ∃ new, sends a' = sends s.agent ++ new :=
    fun h => ⟨[], h.trans (List.append_nil _).symm⟩
  cases l with
  | agent l =>
    obtain ⟨hl, a, ha, rfl⟩ := System.step_agent hs
    simp only [Agent.step] at ha
    split_ifs at ha with hfinal
    cases l with
    | main c => exact Option.some.inj ha ▸ sends_main
    | talker e => exact absurd rfl (hl e)
    | post =>
      obtain ⟨ui, -, -, rfl⟩ := postStep_spec ha
      exact same rfl
    | postThrows =>
      obtain ⟨ui, -, -, rfl⟩ := throwStep_spec ha
      exact same rfl
    | finish =>
      obtain ⟨ui, -, -, rfl⟩ := finishStep_spec ha
      exact same rfl
    | sigterm => exact Option.some.inj ha ▸ same rfl
  | thread e =>
    exact same (sends_threadStep (System.step_thread hs).2)

/-- Whoever is answered has asked, so the connection was there. -/
theorem received_of_sent (h : Reachable L cond w) {p : RequestPtr}
    (hx : (p, x) ∈ sends w.system.agent) : w.system.thread.received ≠ [] ∧
      x.requestType ≠ RT_Close := by
  have hsystem := reachable_system h
  obtain ⟨a, hinv, hstore⟩ := System.exists_inv hsystem
  have hrecords := System.records hsystem
  rw [mem_sends] at hx
  obtain ⟨r, hr, haction, -, hclose, -⟩ := hinv.about (hstore ▸ hx)
  rw [hstore] at hr
  refine ⟨fun hnil => ?_, hclose⟩
  have hhanded : r ∈ w.system.thread.handed := List.mem_of_getElem? (hrecords.lined.handed hr)
  have hpos : 0 < w.system.thread.handed.countP (System.isAction r.id) :=
    List.countP_pos_iff.2 ⟨r, hhanded, by simp [System.isAction, haction]⟩
  have hasked := hrecords.asked r.id
  simp only [System.Asked, hnil, List.countP_nil] at hasked
  omega

/-- The connection is there from `cynara_agent_initialize` on. -/
theorem opens {s s' : System} {l : System.Label} (hs : System.step L l s = some s')
    (hclosed : opened s.thread.point = false) (hopen : opened s'.thread.point = true) :
    s.thread.point = .agentInitialize ∧ s'.thread.received = s.thread.received := by
  cases l with
  | agent l =>
    obtain ⟨-, a, -, rfl⟩ := System.step_agent hs
    simp [hclosed] at hopen
  | thread e =>
    have hstep := (System.step_thread hs).2
    cases hstep with
    | initialized hpoint => exact ⟨hpoint, rfl⟩
    | _ => simp_all [opened, System.goto]

theorem ordered (h : Reachable L cond w) : ∃ done dropped, Ordered w done dropped := by
  induction h with
  | start => exact ⟨[], [], rfl, rfl, by simp, fun hne => absurd rfl hne⟩
  | @step w w' l hr hl hs ih =>
    obtain ⟨done, dropped, hsent, hcalls, hput, hfinished⟩ := ih
    have hr' : Reachable L cond w' := hr.step l hl hs
    obtain ⟨s, hsys, rfl⟩ := Option.map_eq_some_iff.1 hs
    obtain ⟨new, hnew⟩ := sends_step hsys
    have hdrop : (sends s.agent).drop (sends w.system.agent).length = new := by
      rw [hnew, List.drop_left]
    have hsent' : (sends s.agent).map Prod.snd =
        done.map Prod.fst ++ dropped ++ new.map Prod.snd := by
      rw [hnew, List.map_append, hsent]
    cases hconnected : w.connected with
    | true =>
      -- nothing was dropped so far, and what is sent now is put
      have hdropped : dropped = [] := by
        by_contra hne
        have := (hfinished hne).2
        simp [← connected_iff hr, hconnected] at this
      subst hdropped
      refine ⟨done ++ new.map fun x => (x.2, CynaraTalker.sendResponse true l.2 x.2), [],
        by simpa [Function.comp_def] using hsent', ?_, fun x hx => ?_, fun hne => absurd rfl hne⟩
      · simp only [hdrop, hcalls, List.map_nil, List.append_nil]
      · rcases List.mem_append.1 hx with hx | hx
        · exact hput x hx
        · obtain ⟨y, hy, rfl⟩ := List.mem_map.1 hx
          have hclose := (received_of_sent hr' (hnew ▸ List.mem_append_right _ hy)).2
          exact ⟨hclose, (sendResponse_connected l.2 hclose).1⟩
    | false =>
      refine ⟨done, dropped ++ new.map Prod.snd, by simpa using hsent', ?_, hput, fun hne => ?_⟩
      · simp only [hdrop, hcalls, List.map_append, List.map_map, List.append_assoc]
        rfl
      · -- something was sent, so the connection was there before
        have hreceived : s.thread.received ≠ [] := by
          obtain ⟨x, hx⟩ := List.exists_mem_of_ne_nil _ hne
          have hmem : x ∈ (sends s.agent).map Prod.snd := by
            rw [hsent', List.append_assoc]
            exact List.mem_append_right _ hx
          obtain ⟨⟨p, x⟩, hpx, rfl⟩ := List.mem_map.1 hmem
          exact (received_of_sent hr' hpx).1
        refine ⟨hreceived, ?_⟩
        by_contra hopen
        have hclosed : opened w.system.thread.point = false := by
          rw [← connected_iff hr, hconnected]
        obtain ⟨hpoint, hsame⟩ := opens hsys hclosed (by simpa using hopen)
        rw [hsame] at hreceived
        exact hreceived ((System.records (reachable_system hr)).fresh (Or.inl hpoint))

theorem Ordered.puts {done : List (Sent × Option Put × Bool)} {dropped : List Sent}
    (h : Ordered w done dropped) : w.puts.map some = (done.map Prod.fst).map putOf := by
  have hdropped : (dropped.map fun x => (x, (none : Option Put), false)).filterMap
      (fun x => x.2.1) = [] := by
    rw [List.filterMap_map]
    exact List.filterMap_eq_nil_iff.2 fun x _ => rfl
  rw [Connection.puts, h.calls, List.filterMap_append, hdropped, List.append_nil]
  have hput := h.put
  clear h hdropped
  induction done with
  | nil => rfl
  | cons x done ih =>
    obtain ⟨hclose, hx⟩ := hput x List.mem_cons_self
    obtain ⟨y, hy⟩ := Option.isSome_iff_exists.1 (sendResponse_connected true hclose).2
    rw [List.filterMap_cons, hx, hy]
    simp only [List.map_cons, hy]
    rw [ih fun x hx => hput x (List.mem_cons_of_mem _ hx), List.map_map]

/-- **Answers come in order.** In every run the responses are put on the connection in the order in
which the main thread sends them, none fails for its type, and those that are dropped are the last
ones: they were sent after the connection was finished, with messages received before, and not
before it was there. -/
theorem answers_in_order (h : Reachable L cond w) : ∃ put dropped : List Sent,
    (sends w.system.agent).map Prod.snd = put ++ dropped ∧
      w.puts.map some = put.map putOf ∧
      w.calls.drop put.length = dropped.map (fun x => (x, none, false)) ∧
      (dropped ≠ [] → w.system.thread.received ≠ [] ∧
        (w.system.thread.point = .setValue ∨ w.system.thread.point = .returned)) := by
  obtain ⟨done, dropped, hordered⟩ := ordered h
  refine ⟨done.map Prod.fst, dropped, hordered.sent, hordered.puts, ?_, fun hne => ?_⟩
  · rw [hordered.calls, List.length_map, List.drop_left]
  · obtain ⟨hreceived, hclosed⟩ := hordered.finished hne
    have hfresh := (System.records (reachable_system h)).fresh
    have hcrash := not_crashed h
    refine ⟨hreceived, ?_⟩
    cases hpoint : w.system.thread.point <;> simp_all [opened, System.Fresh]

/-- Two questions come. For the first one no dialog can be created, which cynara is told; the second
one is answered after cynara has gone away. -/
def lateRun : List (System.Label × Bool) :=
  [.agent tick, .thread (.agentInitialize true), .agent tick, .agent tick,
    .thread (.getRequest (some ⟨.ACTION, 1, some question⟩)), .thread (.construct none),
    .thread (.handle none), .thread .proceed,
    .thread (.getRequest (some ⟨.ACTION, 2, some question⟩)), .thread (.construct none),
    .thread (.handle none), .thread .proceed,
    .agent tick, .agent (.main ⟨0, 0, false⟩), .agent tick, .agent tick, .agent tick, .agent tick,
    .agent (.post 1 0 4), .thread (.getRequest none), .thread .proceed, .thread .proceed,
    .thread .proceed, .agent tick, .agent tick].map fun l => (l, true)

theorem answers_in_order_late : ∃ w, Reachable .lp64 Run.always w ∧
    (w.puts.map Put.id, w.calls.map fun x => x.1.requestId) = ([1], [1, 2]) ∧
    ∃ put dropped : List Sent, (sends w.system.agent).map Prod.snd = put ++ dropped ∧
      w.puts.map some = put.map putOf ∧
      w.calls.drop put.length = dropped.map (fun x => (x, none, false)) ∧
      (dropped ≠ [] → w.system.thread.received ≠ [] ∧
        (w.system.thread.point = .setValue ∨ w.system.thread.point = .returned)) := by
  obtain ⟨w, hw, hst⟩ : ∃ w, Reachable .lp64 Run.always w ∧
      (w.puts.map Put.id, w.calls.map fun x => x.1.requestId) = ([1], [1, 2]) :=
    Run.Reachable.exists_of_exec lateRun (by decide +kernel)
  exact ⟨w, hw, hst, answers_in_order hw⟩

/-- **Nobody is answered twice.** In every run, whatever ids are used again, cynara gets no more
responses with an id than it has sent Actions with this id before. -/
theorem answered_once (h : Reachable L cond w) (i : RequestId) :
    w.puts.countP (fun x => x.id = i) ≤
      w.system.thread.received.countP (System.asksAbout i) := by
  have hsystem := reachable_system h
  obtain ⟨a, hinv, hstore⟩ := System.exists_inv hsystem
  have hrecords := System.records hsystem
  have hsends : sends w.system.agent = sends a := sends_of_store hstore.symm
  obtain ⟨done, dropped, hordered⟩ := ordered h
  have hputs : w.puts.countP (fun x => x.id = i) ≤
      (sends w.system.agent).countP fun x => x.2.requestId = i := by
    calc w.puts.countP (fun x => x.id = i)
        = (w.puts.map some).countP (fun y => y.any fun x => x.id = i) := by
          rw [List.countP_map]
          rfl
      _ = (done.map Prod.fst).countP (fun x => (putOf x).any fun y => y.id = i) := by
          rw [hordered.puts, List.countP_map]
          rfl
      _ ≤ (done.map Prod.fst).countP (fun x => x.requestId = i) := by
          refine List.countP_mono_left fun x _ hx => ?_
          obtain ⟨y, hy, hid⟩ := (Option.any_eq_true _ _).1 hx
          rw [← putOf_id hy]
          exact hid
      _ ≤ ((sends w.system.agent).map Prod.snd).countP (fun x => x.requestId = i) := by
          rw [hordered.sent, List.countP_append]
          exact Nat.le_add_right _ _
      _ = (sends w.system.agent).countP (fun x => x.2.requestId = i) := by
          rw [List.countP_map]
          rfl
  have hhanded : (sends w.system.agent).countP (fun x => x.2.requestId = i) ≤
      w.system.thread.handed.countP (System.isAction i) := by
    refine countP_le_of_positions (p := fun x : Sent => x.requestId = i) ?_ ?_
    · rw [hsends]
      exact hinv.sends_nodup
    · intro p x hx hid
      rw [mem_sends, ← hstore] at hx
      obtain ⟨r, hr, haction, hrid, -⟩ := hinv.about hx
      rw [hstore] at hr
      refine ⟨r, hrecords.lined.handed hr, ?_⟩
      simpa [System.isAction, haction, hrid] using hid
  have hasked := hrecords.asked i
  unfold System.Asked at hasked
  omega

theorem answered_once_late : ∃ w, Reachable .lp64 Run.always w ∧
    w.puts.countP (fun x => x.id = 1) = 1 ∧
    w.puts.countP (fun x => x.id = 1) ≤
      w.system.thread.received.countP (System.asksAbout 1) := by
  obtain ⟨w, hw, hst⟩ : ∃ w, Reachable .lp64 Run.always w ∧
      w.puts.countP (fun x => x.id = 1) = 1 :=
    Run.Reachable.exists_of_exec lateRun (by decide +kernel)
  exact ⟨w, hw, hst, answered_once hw 1⟩

end Connection

end AskUser
