import AskUser.Process
import AskUser.Progress

/-!
# The invariant of the locks

`Locked` is the invariant of the process: the threads in a critical section are those that own
`m_mutex`, `lock` owns it where the text of `run` says so, and a thread is in its handler as far as
it has come. While the main thread owns the mutex nobody can push (`Locked.sameQueues`), so what it
has read of the queues stays true (`Statement.Expects`): it never takes from an empty queue.

The mutex of `CynaraTalker` has an invariant of its own (`Mlocked`): it is owned where a `mlock` is
in scope, in a call of the main thread or at the end of `CynaraTalker::run`.

`MainMove` and `OtherMove` list what the steps do where the invariant holds. The misuse of a mutex
is not among them.
-/

namespace AskUser.Process
open Agent CynaraTalker Locks Objects

variable {L : Limits} {c : Choice} {s s' : Process} {t : ThreadId} {sys sys' : System}
  {st next : Statement}

/-! ### The invariant -/

/-- The thread is in a critical section. -/
def inside (s : Process) : ThreadId → Prop
  | .main => s.owns
  | .talker => s.handler .talker ≠ .outside
  | .dialog u => s.handler (.dialog u) ≠ .outside

/-- One of the queues is not empty. -/
def Queued (a : Agent) : Prop := a.store.incomingRequests ≠ [] ∨ a.incomingResponses ≠ []

/-- What holds at a statement: whether `lock` owns the mutex, and what was read of the queues since
it does. -/
def Statement.Expects (owns : Bool) (a : Agent) : Statement → Prop
  | .waitFor | .ifStopped | .whileRequests | .unlockForRequest _ | .ifResponse
  | .unlockForResponse _ | .unlockForCleanup => owns
  | .orResponses => owns ∧ a.store.incomingRequests = []
  | .ifRequest => owns ∧ Queued a
  | .popRequest => owns ∧ a.store.incomingRequests ≠ []
  | .popResponse => owns ∧ a.incomingResponses ≠ []
  | .endOfBody | .endOfRun => True
  | .undefined => False
  | .start | .whileRunning | .construct | .asleep _ | .relock | .request _ | .lockAfterRequest
  | .response _ | .lockAfterResponse | .cleanup | .lockAfterCleanup | .finish | .ended =>
    owns = false

/-- The thread of a dialog that is in its handler. -/
def Handler.threadState : Handler → ThreadState
  | .outside | .locked => .running
  | .pushed | .notified => .posted

/-- What holds of a thread that is in its handler. -/
def Fits (sys : System) (h : Handler) : ThreadId → Prop
  | .main => True
  | .talker => (h = .locked → hands sys.thread.point) ∧ (h ≠ .outside → sys.thread.promises = 0)
  | .dialog u => h ≠ .outside → ∃ ui, sys.agent.dialogs.objects.cell u = some ui ∧
    ui.thread = h.threadState

/-- The points of `CynaraTalker::run` where its `mlock` can be in scope. -/
def closes : Point → Bool
  | .finish | .setValue | .returned => true
  | _ => false

/-- The calls that can come to `sendResponse`. -/
def Statement.sends : Statement → Bool
  | .request _ | .response _ => true
  | _ => false

/-- The thread is in the scope of its `mlock`. -/
def mlocked (s : Process) : ThreadId → Prop
  | .main => s.sending.isSome
  | .talker => s.closing
  | .dialog _ => False

/-- The invariant of the mutex of `CynaraTalker`. -/
structure Mlocked (s : Process) : Prop where
  mguards : s.talkerMutex.Guards s.mlocked
  sending : s.sending.isSome → s.statement.sends
  closing : s.closing → closes s.system.thread.point ∧ s.handler .talker = .outside

structure Locked (s : Process) : Prop extends Mlocked s where
  guards : s.mutex.Guards s.inside
  expects : s.statement.Expects s.owns s.system.agent
  place : s.statement ≠ .ended → s.system.agent.pc = s.statement.pc
  ended : s.statement = .ended → s.system.agent.pc.isFinal
  main : s.handler .main = .outside
  fits : s.system.agent.pc.isFinal = false → ∀ t, Fits s.system (s.handler t) t

theorem fits_outside : Fits sys .outside t := by
  cases t <;> simp [Fits]

theorem Fits.same {h : Handler} (hf : Fits sys h t) (hthread : sys'.thread = sys.thread)
    (hdialogs : sys'.agent.dialogs = sys.agent.dialogs) : Fits sys' h t := by
  cases t with
  | main => trivial
  | talker => simpa [Fits, hthread] using hf
  | dialog u => simpa [Fits, hdialogs] using hf

theorem mlocked_new : Mlocked new where
  mguards := Mutex.guards_free.congr fun t => by cases t <;> simp [mlocked, new]
  sending h := by simp [new] at h
  closing h := by simp [new] at h

theorem locked_new : Locked new where
  toMlocked := mlocked_new
  guards := Mutex.guards_free.congr fun t => by cases t <;> simp [inside, new]
  expects := rfl
  place _ := rfl
  ended h := by simp [new] at h
  main := rfl
  fits _ _ := fits_outside

theorem inside_iff (h : s.handler .main = .outside) :
    s.inside t ↔ t = .main ∧ s.owns ∨ s.handler t ≠ .outside := by
  cases t <;> simp [inside, h]

/-- A thread that owns the mutex is the only one. -/
theorem Locked.owner (h : Locked s) (hin : s.inside t) : s.mutex.owner = some t :=
  (h.guards t).2 hin

/-! ### The text of `run` -/

/-- A lock is taken where the agent is, and `lock` does not own it before. -/
theorem code_lock (hcode : code st = .lock next) : next.pc = st.pc ∧ next ≠ .ended ∧
    ∀ a, next.Expects true a ∧ (st.Expects true a → False) := by
  cases st <;> simp only [code, Instruction.lock.injEq, reduceCtorEq] at hcode <;> subst hcode <;>
    simp [Statement.pc, Statement.Expects]

theorem code_unlock (hcode : code st = .unlock next) : next.pc = st.pc ∧ next ≠ .ended ∧
    ∀ a, next.Expects false a ∧ (st.Expects false a → False) := by
  cases st <;> simp only [code, Instruction.unlock.injEq, reduceCtorEq] at hcode <;>
    subst hcode <;> simp [Statement.pc, Statement.Expects]

theorem code_destroy (hcode : code st = .destroy next) : next.pc = st.pc ∧ next ≠ .ended ∧
    ∀ a, next.Expects false a := by
  cases st <;> simp only [code, Instruction.destroy.injEq, reduceCtorEq] at hcode <;>
    subst hcode <;> simp [Statement.pc, Statement.Expects]

theorem code_pop {pop : System → Option (System × Statement)} (hcode : code st = .pop pop) :
    st = .popRequest ∧ pop = popRequest ∨ st = .popResponse ∧ pop = popResponse := by
  cases st <;> simp only [code, Instruction.pop.injEq, reduceCtorEq] at hcode <;> simp [hcode]

/-- A test keeps what is known, and adds what it has read. -/
theorem code_test {test : Agent → Statement} (hcode : code st = .test test) (a : Agent)
    {owns : Bool} (h : st.Expects owns a) : (test a).Expects owns a ∧ test a ≠ .ended := by
  cases st <;> simp only [code, Instruction.test.injEq, reduceCtorEq] at hcode <;> subst hcode <;>
    simp only [Statement.Expects] at h ⊢ <;> grind [Statement.Expects, Queued]

/-- A call is made without the lock. -/
theorem code_call {next : Pc → Statement} (hcode : code st = .call next) {owns : Bool} {a : Agent}
    (h : st.Expects owns a) : owns = false ∧ ∀ pc a', (next pc).Expects false a' := by
  cases st <;> simp only [code, Instruction.call.injEq, reduceCtorEq] at hcode <;> subst hcode <;>
    simp only [Statement.Expects] at h <;> refine ⟨h, fun pc a' => ?_⟩ <;> cases pc <;>
    simp [Statement.Expects, afterRequest, afterResponse, afterCleanup, left]

/-! ### The moves of the main thread -/

/-- The call of the main thread can come to its end, and leaves the mutex of `CynaraTalker` as it is
in `m`. -/
inductive CallEnds (L : Limits) (c : Choice) (s : Process) : Mutex ThreadId → Prop
  | quiet : s.sending = none → s.joins = false → sendsResponse L c s.system.agent = false →
      CallEnds L c s s.talkerMutex
  | sent : s.sending = some c → s.talkerMutex.owner = some .main → CallEnds L c s .free

/-- What a step of the main thread does. -/
inductive MainMove (L : Limits) (c : Choice) (s : Process) : Process → Prop
  | locks (next : Statement) : code s.statement = .lock next → s.owns = false →
      s.mutex.owner = none →
      MainMove L c s { s.goto next with mutex := ⟨some .main⟩, owns := true }
  | unlocks (next : Statement) :
      code s.statement = .unlock next ∨ code s.statement = .destroy next →
      s.owns → s.mutex.owner = some .main →
      MainMove L c s { s.goto next with mutex := .free, owns := false }
  | leaves (next : Statement) : code s.statement = .destroy next → s.owns = false →
      MainMove L c s (s.goto next)
  | tests (test : Agent → Statement) : code s.statement = .test test →
      MainMove L c s (s.goto (test s.system.agent))
  | pops (pop : System → Option (System × Statement)) (sys : System) (st : Statement) :
      code s.statement = .pop pop → pop s.system = some (sys, st) →
      MainMove L c s ({ s with system := sys }.goto st)
  /-- The call goes into `sendResponse`. -/
  | sends (next : Pc → Statement) : code s.statement = .call next → s.owns = false →
      s.sending = none → sendsResponse L c s.system.agent → s.talkerMutex.owner = none →
      MainMove L c s { s with talkerMutex := ⟨some .main⟩, sending := some c }
  | calls (next : Pc → Statement) (m : Mutex ThreadId) : code s.statement = .call next →
      s.owns = false → s.CallEnds L c m →
      MainMove L c s { s with
        system.agent := Agent.mainStep L c s.system.agent
        statement := next (Agent.mainStep L c s.system.agent).pc
        talkerMutex := m
        sending := none }

theorem popRequest_spec {p : RequestPtr} {rest : List RequestPtr}
    (hq : sys.agent.store.incomingRequests = p :: rest) : popRequest sys = some ({ sys with
      agent.store := { sys.agent.store with incomingRequests := rest }.note p .popped
      taken := sys.taken ++ (sys.agent.store.objects.cell p).toList }, .unlockForRequest p) := by
  simp [popRequest, hq]

theorem popResponse_spec {r : Response} {rest : List Response}
    (hq : sys.agent.incomingResponses = r :: rest) : popResponse sys = some ({ sys with
      agent.incomingResponses := rest
      agent.answers := sys.agent.answers.note r.postedBy (.popped r) },
        .unlockForResponse r) := by
  simp [popResponse, hq]

/-- What a pop does: the front of one of the queues is taken. -/
inductive Popped (sys : System) (st : Statement) : System → Statement → Prop
  | request {p : RequestPtr} {rest : List RequestPtr} : st = .popRequest →
      sys.agent.store.incomingRequests = p :: rest →
      Popped sys st { sys with
        agent.store := { sys.agent.store with incomingRequests := rest }.note p .popped
        taken := sys.taken ++ (sys.agent.store.objects.cell p).toList } (.unlockForRequest p)
  | response {r : Response} {rest : List Response} : st = .popResponse →
      sys.agent.incomingResponses = r :: rest →
      Popped sys st { sys with
        agent.incomingResponses := rest
        agent.answers := sys.agent.answers.note r.postedBy (.popped r) } (.unlockForResponse r)

theorem code_popped {pop : System → Option (System × Statement)} (hcode : code st = .pop pop)
    (hpop : pop sys = some (sys', next)) : Popped sys st sys' next := by
  rcases code_pop hcode with ⟨hst, rfl⟩ | ⟨hst, rfl⟩
  · cases hq : sys.agent.store.incomingRequests with
    | nil => simp [popRequest, hq] at hpop
    | cons p rest =>
      rw [popRequest_spec hq] at hpop
      simp only [Option.some.injEq, Prod.mk.injEq] at hpop
      obtain ⟨rfl, rfl⟩ := hpop
      exact .request hst hq
  · cases hq : sys.agent.incomingResponses with
    | nil => simp [popResponse, hq] at hpop
    | cons r rest =>
      rw [popResponse_spec hq] at hpop
      simp only [Option.some.injEq, Prod.mk.injEq] at hpop
      obtain ⟨rfl, rfl⟩ := hpop
      exact .response hst hq

/-- The main thread waits for a mutex that another thread owns, or to join the thread that owns
it. -/
def Waits (L : Limits) (c : Choice) (s : Process) : Prop :=
  ∃ t, t ≠ .main ∧ ((∃ next, code s.statement = .lock next) ∧ s.mutex.owner = some t ∨
    (∃ next, code s.statement = .call next) ∧ (s.joins ∨ sendsResponse L c s.system.agent) ∧
      s.talkerMutex.owner = some t)

/-- A call of the main thread goes on, or waits for the thread of `CynaraTalker`. -/
theorem Mlocked.callStep (h : Mlocked s) {next : Pc → Statement}
    (hcode : code s.statement = .call next) (howns : s.owns = false)
    (hc : ∀ c' ∈ s.sending, c = c') :
    (∃ s', s.callStep L c next = some s' ∧ MainMove L c s s') ∨
      s.Waits L c ∧ s.callStep L c next = none := by
  have hmain : s.talkerMutex.owner = some .main ↔ s.sending.isSome := h.mguards .main
  unfold Process.callStep
  cases hsending : s.sending with
  | some c' =>
    obtain rfl : c = c' := hc c' hsending
    have howner := hmain.2 (by simp [hsending])
    simp only [if_true, Mutex.unlock_eq howner]
    exact Or.inl ⟨_, rfl, .calls next .free hcode howns (.sent hsending howner)⟩
  | none =>
    simp only
    cases hjoins : s.joins with
    | true =>
      -- the thread of `CynaraTalker` is in the scope of its `mlock`
      have hclosing : s.closing := by
        simp only [joins, Bool.and_eq_true] at hjoins
        exact hjoins.2
      have howner := (h.mguards .talker).2 hclosing
      exact Or.inr ⟨⟨.talker, by simp, Or.inr ⟨⟨next, hcode⟩, Or.inl hjoins, howner⟩⟩, rfl⟩
    | false =>
      simp only [Bool.false_eq_true, if_false]
      cases hsends : sendsResponse L c s.system.agent with
      | false =>
        have hcalled : s.called L c next = { s.called L c next with
            talkerMutex := s.talkerMutex, sending := none } := by
          rw [← hsending]
          rfl
        refine Or.inl ⟨_, rfl, ?_⟩
        show MainMove L c s (s.called L c next)
        rw [hcalled]
        exact .calls next _ hcode howns (.quiet hsending hjoins hsends)
      | true =>
        have hnot : s.talkerMutex.owner ≠ some .main := by simp [hmain, hsending]
        simp only [if_true]
        rcases Mutex.lock_cases hnot with ⟨hfree, hlock⟩ | ⟨t, ht, howner, hlock⟩
        · rw [hlock]
          exact Or.inl ⟨_, rfl, .sends next hcode howns hsending hsends hfree⟩
        · rw [hlock]
          exact Or.inr ⟨⟨t, ht, Or.inr ⟨⟨next, hcode⟩, Or.inr hsends, howner⟩⟩, rfl⟩

/-- In its invariant, the main thread never misuses a mutex or a queue. It waits for a mutex only
while another thread owns it, and for nothing else. -/
theorem Locked.mainStep (h : Locked s) (hc : ∀ c' ∈ s.sending, c = c') :
    (∃ s', s.mainStep L c = some s' ∧ MainMove L c s s') ∨
      s.Waits L c ∧ s.mainStep L c = none ∨ s.statement = .ended := by
  have hexpects := h.expects
  have hmain : s.mutex.owner = some .main ↔ s.owns := h.guards .main
  unfold Process.mainStep
  cases hcode : code s.statement with
  | lock next =>
    have howns : s.owns = false := by
      by_contra hne
      rw [Bool.eq_true_of_not_eq_false hne] at hexpects
      exact ((code_lock hcode).2.2 _).2 hexpects
    have hnot : s.mutex.owner ≠ some .main := by simp [hmain, howns]
    simp only [Process.lock, howns, Bool.false_eq_true, if_false]
    rcases Mutex.lock_cases hnot with ⟨hfree, hlock⟩ | ⟨t, ht, howner, hlock⟩
    · rw [hlock]
      exact Or.inl ⟨_, rfl, .locks next hcode howns hfree⟩
    · rw [hlock]
      exact Or.inr (Or.inl ⟨⟨t, ht, Or.inl ⟨⟨next, hcode⟩, howner⟩⟩, rfl⟩)
  | unlock next =>
    have howns : s.owns := by
      by_contra hne
      rw [Bool.eq_false_of_not_eq_true hne] at hexpects
      exact ((code_unlock hcode).2.2 _).2 hexpects
    have howner := hmain.2 howns
    refine Or.inl ⟨_, rfl, ?_⟩
    rw [Process.unlock, if_pos howns, Mutex.unlock_eq howner]
    exact .unlocks next (Or.inl hcode) howns howner
  | destroy next =>
    refine Or.inl ⟨_, rfl, ?_⟩
    cases howns : s.owns with
    | false => exact .leaves next hcode howns
    | true =>
      have howner := hmain.2 howns
      rw [if_pos rfl, Process.unlock, if_pos howns, Mutex.unlock_eq howner]
      exact .unlocks next (Or.inr hcode) howns howner
  | test test => exact Or.inl ⟨_, rfl, .tests test hcode⟩
  | pop pop =>
    left
    rcases code_pop hcode with ⟨hst, rfl⟩ | ⟨hst, rfl⟩
    · rw [hst] at hexpects
      obtain ⟨p, rest, hq⟩ := List.exists_cons_of_ne_nil hexpects.2
      simp only [popRequest_spec hq]
      exact ⟨_, rfl, .pops _ _ _ hcode (popRequest_spec hq)⟩
    · rw [hst] at hexpects
      obtain ⟨r, rest, hq⟩ := List.exists_cons_of_ne_nil hexpects.2
      simp only [popResponse_spec hq]
      exact ⟨_, rfl, .pops _ _ _ hcode (popResponse_spec hq)⟩
  | call next =>
    exact (h.toMlocked.callStep hcode (code_call hcode hexpects).1 hc).imp_right Or.inl
  | none =>
    right; right
    cases hst : s.statement <;> simp [hst, code] at hcode
    · rfl
    · rw [hst] at hexpects
      exact hexpects.elim

/-! ### The moves of the other threads -/

/-- The state after a push, which leaves the system as it is in `sys`. -/
def pushed (s : Process) (t : ThreadId) (sys : System) : Process :=
  { s.setHandler t .pushed with system := sys, missed := s.missed || s.statement.unaware }

/-- What the other threads do. -/
inductive OtherMove (s : Process) : Label → Process → Prop
  | locked (t : ThreadId) : s.calling t → s.handler t = .outside → s.mutex.owner = none →
      OtherMove s (.lock t) { s.setHandler t .locked with mutex := ⟨some t⟩ }
  | handed (e : Event) (sys : System) : System.ThreadStep s.system e sys →
      Process.hands s.system.thread.point → (∀ x, e ≠ .handle (some x)) →
      s.handler .talker = .locked → OtherMove s (.thread e) (s.pushed .talker sys)
  | posted (u : UIPtr) (ret : ℤ) (button : Int32) (a : Agent) :
      postStep u ret button s.system.agent = some a → s.handler (.dialog u) = .locked →
      OtherMove s (.post u ret button) (s.pushed (.dialog u) { s.system with agent := a })
  | threw (u : UIPtr) (a : Agent) : Agent.throwStep u s.system.agent = some a →
      s.handler (.dialog u) = .outside →
      OtherMove s (.postThrows u) { s with system.agent := a }
  | threwLocked (u : UIPtr) (a : Agent) : Agent.throwStep u s.system.agent = some a →
      s.handler (.dialog u) = .locked → s.mutex.owner = some (.dialog u) →
      OtherMove s (.postThrows u)
        { s.setHandler (.dialog u) .outside with system.agent := a, mutex := .free }
  | notified (t : ThreadId) : s.handler t = .pushed → (∀ n, s.statement ≠ .asleep n) →
      OtherMove s (.notify t) (s.setHandler t .notified)
  | woken (t : ThreadId) (n : Bool) : s.handler t = .pushed → s.statement = .asleep n →
      OtherMove s (.notify t) { s.setHandler t .notified with statement := .asleep true }
  | unlocked (t : ThreadId) : s.handler t = .notified → s.mutex.owner = some t →
      OtherMove s (.unlock t) { s.setHandler t .outside with mutex := .free }
  | thread (e : Event) (sys : System) : System.ThreadStep s.system e sys →
      Process.hands s.system.thread.point = false → s.handler .talker = .outside →
      (s.system.thread.point = .finish → s.closing) →
      OtherMove s (.thread e) { s with system := sys }
  | thrown (x : Thrown) (sys : System) : System.ThreadStep s.system (.handle (some x)) sys →
      s.handler .talker = .outside →
      OtherMove s (.thread (.handle (some x))) { s with system := sys }
  | unwound (x : Thrown) (sys : System) : System.ThreadStep s.system (.handle (some x)) sys →
      s.handler .talker = .locked → s.mutex.owner = some .talker →
      OtherMove s (.thread (.handle (some x)))
        { s.setHandler .talker .outside with system := sys, mutex := .free }
  | finished (u : UIPtr) (a : Agent) : finishStep u s.system.agent = some a →
      s.handler (.dialog u) = .outside → OtherMove s (.finish u) { s with system.agent := a }
  | mlocks : s.system.thread.point = .finish → s.handler .talker = .outside →
      s.talkerMutex.owner = none →
      OtherMove s .mlock { s with talkerMutex := ⟨some .talker⟩, closing := true }
  | munlocks : s.system.thread.point = .returned → s.closing →
      s.talkerMutex.owner = some .talker →
      OtherMove s .munlock { s with talkerMutex := .free, closing := false }
  | sigterm : OtherMove s .sigterm { s with system.agent.stopFlag := true }

theorem calling_not_main (ht : s.calling t) : t ≠ .main := by
  rintro rfl
  simp [calling] at ht

theorem Locked.lockStep (h : Locked s) (hs : s.lockStep t = some s') :
    OtherMove s (.lock t) s' := by
  unfold Process.lockStep at hs
  split_ifs at hs with hcond
  obtain ⟨hcalling, hout⟩ := hcond
  have hnot : s.mutex.owner ≠ some t := by
    rw [Ne, h.guards t]
    cases t with
    | main => simp [calling] at hcalling
    | talker | dialog => simp [inside, hout]
  rcases Mutex.lock_cases hnot with ⟨hfree, hlock⟩ | ⟨t', -, -, hlock⟩
  · rw [hlock] at hs
    exact Option.some.inj hs ▸ .locked t hcalling hout hfree
  · rw [hlock] at hs
    simp at hs

/-- The destructor of `lock` in a handler. -/
theorem Locked.release (h : Locked s) (hin : s.handler t ≠ .outside) :
    s.mutex.owner = some t ∧ s.release t = { s.setHandler t .outside with mutex := .free } := by
  have howner : s.mutex.owner = some t := h.owner ((inside_iff h.main).2 (Or.inr hin))
  refine ⟨howner, ?_⟩
  rw [Process.release, Mutex.unlock_eq howner]

theorem Locked.threadStep (h : Locked s) {e : Event} (hs : s.threadStep e = some s') :
    OtherMove s (.thread e) s' := by
  unfold Process.threadStep at hs
  by_cases hmlock : s.system.thread.point = .finish ∧ s.closing = false
  · simp [hmlock] at hs
  rw [if_neg hmlock] at hs
  obtain ⟨sys, hsys, hs⟩ := Option.bind_eq_some_iff.1 hs
  have hstep := System.threadStep_cases hsys
  by_cases hhands : Process.hands s.system.thread.point
  · rw [if_pos hhands] at hs
    have hpush : (∀ x, e ≠ .handle (some x)) → s.push .talker sys = some s' →
        OtherMove s (.thread e) s' := by
      intro hquiet hs
      unfold push at hs
      split_ifs at hs with hlocked
      exact Option.some.inj hs ▸ .handed e sys hstep hhands hquiet hlocked
    split at hs
    · next _ _ x hout _ => exact Option.some.inj hs ▸ .thrown x sys hstep hout
    · next _ _ x hlocked _ =>
      obtain ⟨howner, hrelease⟩ := h.release (t := .talker) (by simp [hlocked])
      have heq : ({ s with system := sys } : Process).release .talker =
          { s.setHandler .talker .outside with system := sys, mutex := .free } := by
        rw [Process.release, Mutex.unlock_eq howner]
        rfl
      rw [heq] at hs
      exact Option.some.inj hs ▸ .unwound x sys hstep hlocked howner
    · simp at hs
    · next hquiet _ _ _ => exact hpush hquiet hs
  · rw [if_neg hhands] at hs
    split_ifs at hs with hout
    exact Option.some.inj hs ▸ .thread e sys hstep (by simpa using hhands) hout fun hpoint => by
      simpa [hpoint] using hmlock

theorem Locked.throwStep (h : Locked s) {u : UIPtr} {a : Agent}
    (ha : Agent.throwStep u s.system.agent = some a)
    (hs : s.throwStep u { s.system with agent := a } = some s') :
    OtherMove s (.postThrows u) s' := by
  unfold Process.throwStep at hs
  split at hs
  · next hout => exact Option.some.inj hs ▸ .threw u a ha hout
  · next hlocked =>
    obtain ⟨howner, -⟩ := h.release (t := .dialog u) (by simp [hlocked])
    rw [Process.release, Mutex.unlock_eq howner] at hs
    exact Option.some.inj hs ▸ .threwLocked u a ha hlocked howner
  · simp at hs

theorem Mlocked.mlockStep (h : Mlocked s) (hs : s.mlockStep = some s') :
    OtherMove s .mlock s' := by
  unfold Process.mlockStep at hs
  split_ifs at hs with hcond
  obtain ⟨hpoint, hout, hclosing⟩ := hcond
  have hnot : s.talkerMutex.owner ≠ some .talker := by
    rw [Ne, h.mguards .talker]
    simp [mlocked, hclosing]
  rcases Mutex.lock_cases hnot with ⟨hfree, hlock⟩ | ⟨t, -, -, hlock⟩
  · rw [hlock] at hs
    exact Option.some.inj hs ▸ .mlocks hpoint hout hfree
  · rw [hlock] at hs
    simp at hs

theorem Mlocked.munlockStep (h : Mlocked s) (hs : s.munlockStep = some s') :
    OtherMove s .munlock s' := by
  unfold Process.munlockStep at hs
  split_ifs at hs with hcond
  obtain ⟨hpoint, hclosing⟩ := hcond
  have howner : s.talkerMutex.owner = some .talker := (h.mguards .talker).2 hclosing
  rw [Mutex.unlock_eq howner] at hs
  exact Option.some.inj hs ▸ .munlocks hpoint hclosing howner

theorem step_other (h : Locked s) {l : Label} (hl : ∀ c, l ≠ .main c) (hs : step L l s = some s') :
    s.system.agent.pc.isFinal = false ∧ OtherMove s l s' := by
  unfold step at hs
  split_ifs at hs with hfinal
  have hfinal' : s.system.agent.pc.isFinal = false := by simpa using hfinal
  refine ⟨hfinal', ?_⟩
  -- a step of the agent alone takes nothing from the queue of requests
  have hagent : ∀ {l a}, (∀ c, l ≠ .main c) → System.step L (.agent l) s.system = some a →
      ∃ a', Agent.step L l s.system.agent = some a' ∧ a = { s.system with agent := a' } := by
    intro l a hl ha
    obtain ⟨-, a', ha', rfl⟩ := System.step_agent ha
    refine ⟨a', ha', ?_⟩
    have htaking : System.taking l s.system.agent = none := by
      cases l with
      | main c => exact absurd rfl (hl c)
      | talker | post | postThrows | finish | sigterm => rfl
    simp [htaking]
  cases l with
  | main c => exact absurd rfl (hl c)
  | lock t => exact h.lockStep hs
  | thread e => exact h.threadStep hs
  | post u ret button =>
    obtain ⟨sys, hsys, hs⟩ := Option.bind_eq_some_iff.1 hs
    obtain ⟨a, ha, rfl⟩ := hagent (by simp) hsys
    replace ha : postStep u ret button s.system.agent = some a := by
      simpa [Agent.step, hfinal'] using ha
    unfold push at hs
    split_ifs at hs with hlocked
    exact Option.some.inj hs ▸ .posted u ret button a ha hlocked
  | postThrows u =>
    obtain ⟨sys, hsys, hs⟩ := Option.bind_eq_some_iff.1 hs
    obtain ⟨a, ha, rfl⟩ := hagent (by simp) hsys
    replace ha : Agent.throwStep u s.system.agent = some a := by
      simpa [Agent.step, hfinal'] using ha
    exact h.throwStep ha hs
  | mlock => exact h.mlockStep hs
  | munlock => exact h.munlockStep hs
  | notify t =>
    simp only [notifyStep] at hs
    split_ifs at hs with hpushed
    split at hs
    · next n hst => exact Option.some.inj hs ▸ .woken t n hpushed hst
    · next hst => exact Option.some.inj hs ▸ .notified t hpushed hst
  | unlock t =>
    simp only [unlockStep] at hs
    split_ifs at hs with hnotified
    obtain ⟨howner, hrelease⟩ := h.release (t := t) (by simp [hnotified])
    rw [hrelease] at hs
    exact Option.some.inj hs ▸ .unlocked t hnotified howner
  | finish u =>
    simp only at hs
    split_ifs at hs with hout
    obtain ⟨sys, hsys, rfl⟩ := Option.map_eq_some_iff.1 hs
    obtain ⟨a, ha, rfl⟩ := hagent (by simp) hsys
    replace ha : finishStep u s.system.agent = some a := by
      simpa [Agent.step, hfinal'] using ha
    exact .finished u a ha hout
  | sigterm =>
    obtain ⟨sys, hsys, rfl⟩ := Option.map_eq_some_iff.1 hs
    obtain ⟨a, ha, rfl⟩ := hagent (by simp) hsys
    replace ha : { s.system.agent with stopFlag := true } = a := by
      simpa [Agent.step, hfinal'] using ha
    exact ha ▸ .sigterm

/-- A statement of `CynaraTalker::run` that calls no handler changes what the agent knows of the
thread, and nothing else of it. -/
theorem threadStep_silent {e : Event} (hs : System.ThreadStep s.system e sys)
    (hhands : Process.hands s.system.thread.point = false ∨ ∃ x, e = .handle (some x)) :
    sys.agent = { s.system.agent with talker := sys.agent.talker } := by
  obtain hhands | ⟨x, rfl⟩ := hhands
  · cases hs with
    | closesEarly hpoint | closes hpoint | handled hpoint => simp [Process.hands, hpoint] at hhands
    | _ => rfl
  · cases hs
    rfl

theorem threadStep_alongside {e : Event} (hs : System.ThreadStep s.system e sys) :
    Alongside s.system.agent sys.agent := by
  obtain ⟨hagent, hstore⟩ := hs.agent
  refine ⟨by rw [hagent], ?_, by rw [hagent], by rw [hagent]; exact id⟩
  rcases hstore with hstore | ⟨r, hstore⟩
  · rw [hstore]
  · rw [hstore]
    exact List.prefix_append _ _

theorem OtherMove.alongside {l : Label} (hm : OtherMove s l s') :
    Alongside s.system.agent s'.system.agent := by
  cases hm with
  | locked | notified | woken | unlocked | mlocks | munlocks =>
    exact ⟨rfl, List.prefix_rfl, List.prefix_rfl, id⟩
  | handed e sys hstep | thread e sys hstep | thrown x sys hstep | unwound x sys hstep =>
    exact threadStep_alongside hstep
  | posted u ret button a ha =>
    obtain ⟨ui, -, -, rfl⟩ := postStep_spec ha
    exact ⟨rfl, List.prefix_rfl, List.prefix_append _ _, id⟩
  | threw u a ha | threwLocked u a ha =>
    obtain ⟨ui, -, -, rfl⟩ := throwStep_spec ha
    exact ⟨rfl, List.prefix_rfl, List.prefix_rfl, id⟩
  | finished u a ha =>
    obtain ⟨ui, -, -, rfl⟩ := finishStep_spec ha
    exact ⟨rfl, List.prefix_rfl, List.prefix_rfl, id⟩
  | sigterm => exact ⟨rfl, List.prefix_rfl, List.prefix_rfl, fun _ => rfl⟩

/-- **Nobody pushes** while the main thread owns the mutex. -/
theorem Locked.sameQueues (h : Locked s) {l : Label} (hm : OtherMove s l s') (howns : s.owns) :
    SameQueues s.system.agent s'.system.agent := by
  have hnot : ∀ t, t ≠ .main → s.handler t ≠ .outside → False := fun t ht hin =>
    ht (h.guards.exclusive ((inside_iff h.main).2 (Or.inr hin)) (show s.inside .main from howns))
  cases hm with
  | locked | notified | woken | unlocked | mlocks | munlocks | sigterm => exact ⟨rfl, rfl⟩
  | handed e sys _ _ _ hlocked => exact (hnot .talker (by simp) (by rw [hlocked]; simp)).elim
  | posted u ret button a _ hlocked =>
    exact (hnot (.dialog u) (by simp) (by rw [hlocked]; simp)).elim
  | thread e sys hstep hhands =>
    show SameQueues s.system.agent sys.agent
    rw [threadStep_silent hstep (Or.inl hhands)]
    exact ⟨rfl, rfl⟩
  | thrown x sys hstep | unwound x sys hstep =>
    show SameQueues s.system.agent sys.agent
    rw [threadStep_silent hstep (Or.inr ⟨x, rfl⟩)]
    exact ⟨rfl, rfl⟩
  | threw u a ha | threwLocked u a ha =>
    obtain ⟨ui, -, -, rfl⟩ := throwStep_spec ha
    exact ⟨rfl, rfl⟩
  | finished u a ha =>
    obtain ⟨ui, -, -, rfl⟩ := finishStep_spec ha
    exact ⟨rfl, rfl⟩

end AskUser.Process
