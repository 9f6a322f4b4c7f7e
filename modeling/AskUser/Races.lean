import AskUser.Locking
import AskUser.Shutdown

/-!
# Races, and the end of the mutexes

A thread reads or changes a queue at certain statements (`Touches`), and nothing else changes one
(`touches_of_change`). Two threads are never both at such a statement (`race_free`): the mutex keeps
them apart, and `finish` is not reached by the main thread with the talker still there.

When `finish` has come to its end the two mutexes are destroyed. By then the other threads have come
to their ends too, so none will lock a mutex again (`outlived`).
-/

namespace AskUser.Process
open Agent CynaraTalker Locks Objects Fallible

variable {L : Limits} {c : Choice} {s s' : Process} {t : ThreadId} {st : Statement}

/-! ### Races -/

/-- What more than one thread uses: the queues. -/
inductive Queue
  | incomingRequests
  | incomingResponses
  deriving DecidableEq

/-- The next step of the thread reads or changes the queue. -/
def Touches (s : Process) (q : Queue) : ThreadId → Prop
  | .main => match s.statement with
    | .whileRequests | .ifRequest | .popRequest => q = .incomingRequests
    | .orResponses | .ifResponse | .popResponse => q = .incomingResponses
    -- `finish` takes what is left, once the thread of `CynaraTalker` is joined
    | .finish => q = .incomingRequests ∧ s.system.agent.talker = .finished
    | _ => False
  | .talker => q = .incomingRequests ∧ s.handler .talker = .locked
  | .dialog u => q = .incomingResponses ∧ s.handler (.dialog u) = .locked

/-- Before `finish` a thread touches a queue in a critical section only. -/
theorem Touches.inside {q : Queue} (ht : s.Touches q t) (h : Locked s) :
    s.inside t ∨ t = .main ∧ q = .incomingRequests ∧ s.statement = .finish ∧
      s.system.agent.talker = .finished := by
  cases t with
  | main =>
    have hexpects := h.expects
    simp only [Touches] at ht
    cases hst : s.statement <;> rw [hst] at ht hexpects <;>
      first
      | exact ht.elim
      | exact Or.inl hexpects.1
      | exact Or.inl hexpects
      | exact Or.inr ⟨rfl, ht.1, rfl, ht.2⟩
  | talker => exact Or.inl (by simp [Process.inside, ht.2])
  | dialog u => exact Or.inl (by simp [Process.inside, ht.2])

/-- Once its promise is set, the thread of `CynaraTalker` is in no handler and calls none. -/
theorem talker_outside (h : Reachable L Run.always s) (hfinal : s.system.agent.pc.isFinal = false)
    (ht : s.system.agent.talker = .finished) :
    s.handler .talker = .outside ∧ s.system.thread.point = .returned := by
  have hstage := ((sound_of_running h hfinal).stage hfinal).1
  have hne : s.system.thread.point ≠ .crashed := by
    have hbuffers : Buffers False s.system.thread := System.buffers (by simp) (locked h).1
    exact hbuffers.intact
  have hdone : s.system.thread.promises = 1 ∧ s.system.thread.point = .returned := by
    cases hpoint : s.system.thread.point <;> rw [hpoint] at hstage hne <;>
      simp_all [System.Stage]
  refine ⟨?_, hdone.2⟩
  by_contra hin
  have := ((locked h).2.fits hfinal .talker).2 hin
  omega

/-- The thread that takes the step. -/
def Label.actor : Label → Option ThreadId
  | .main _ => some .main
  | .lock t | .notify t | .unlock t => some t
  | .thread _ | .mlock | .munlock => some .talker
  | .post u _ _ | .postThrows u | .finish u => some (.dialog u)
  | .sigterm => none

/-- The queue is as it was. -/
def Queue.Same (a a' : Agent) : Queue → Prop
  | .incomingRequests => a'.store.incomingRequests = a.store.incomingRequests
  | .incomingResponses => a'.incomingResponses = a.incomingResponses

theorem same_of_sameQueues {a a' : Agent} (h : SameQueues a a') (q : Queue) : q.Same a a' := by
  cases q with
  | incomingRequests => exact h.1
  | incomingResponses => exact h.2

/-- A call of the main thread other than `finish` leaves the queues alone. -/
theorem mainStep_sameQueues {next : Pc → Statement} {a : Agent} (hcode : code st = .call next)
    (hst : st ≠ .finish) (hinv : Inv a) (hpc : a.pc = st.pc) :
    SameQueues a (Agent.mainStep L c a) := by
  have hrun : a.pc.isFinal = false := by
    rw [hpc]
    cases st <;> simp_all [code, Statement.pc, Pc.isFinal]
  have hs := mainStep_cases (L := L) (c := c) hinv hrun
  generalize Agent.mainStep L c a = a' at hs
  cases hs with
  | popped h | poppedResponse h | exited _ h | finished _ h =>
    rw [hpc] at h
    cases st <;> simp [code, Statement.pc] at hcode h hst
  | recorded _ _ _ hl => exact ⟨by rw [Requests.insert_eq hl], rfl⟩
  | _ => exact ⟨rfl, rfl⟩

/-- The queue of responses stays as it is. -/
def sameResponses : Frame Agent where
  rel a a' := a'.incomingResponses = a.incomingResponses
  refl _ := rfl
  trans h h' := h'.trans h

theorem sameResponses_shutdown : AllowsShutdown sameResponses where
  put _ _ _ := rfl
  joined _ _ := rfl
  erase _ _ := rfl
  free _ _ := rfl
  talker _ _ _ := rfl
  pop _ _ := rfl
  eraseRequest _ _ := rfl
  delete _ _ := rfl

/-- `finish` leaves the queue of responses alone, and that of requests unless it can join the
thread of `CynaraTalker`. -/
theorem mainStep_finish_queues {a : Agent} (hpc : a.pc = .stopped) :
    (Agent.mainStep L c a).incomingResponses = a.incomingResponses ∧
      (a.talker ≠ .finished → a.talker ≠ .joined →
        (Agent.mainStep L c a).store.incomingRequests = a.store.incomingRequests) := by
  have hresponses : sameResponses.rel a (last (noexcept finish a)) :=
    keeps_finish sameResponses_shutdown a
  simp only [Agent.mainStep, hpc, call]
  constructor
  · cases hrun : noexcept finish a with
    | ok ret a' =>
      rw [hrun] at hresponses
      rw [bind_ok hrun]
      exact hresponses
    | error e a' =>
      rw [hrun] at hresponses
      rw [bind_error hrun]
      cases e <;> exact hresponses
  · intro hfinished hjoined
    have hstop : stopTalker a = .ok false a := by
      cases ht : a.talker <;> simp_all [stopTalker]
    have hrun : noexcept finish a = .ok false a := by
      unfold noexcept finish
      rw [bind_ok hstop]
      rfl
    rw [bind_ok hrun]
    rfl

/-- Whatever changes a queue is a step of a thread that touches it. -/
theorem touches_of_change (h : Reachable L Run.always s) {l : Label} (hs : step L l s = some s')
    {q : Queue} (hq : ¬ q.Same s.system.agent s'.system.agent) :
    ∃ t, l.actor = some t ∧ s.Touches q t := by
  have hlocked := (locked h).2
  obtain ⟨hfinal, hmoves⟩ := step_moves hlocked hs
  have hinv := (sound_of_running h hfinal).inv
  have same : s'.system.agent.store.incomingRequests = s.system.agent.store.incomingRequests →
      s'.system.agent.incomingResponses = s.system.agent.incomingResponses → False :=
    fun hrequests hresponses => hq (same_of_sameQueues ⟨hrequests, hresponses⟩ q)
  rcases hmoves with ⟨c, rfl, hmove⟩ | ⟨-, hmove⟩
  · refine ⟨.main, rfl, ?_⟩
    have hpc : s.system.agent.pc = s.statement.pc := hlocked.place fun he => by
      simp [hlocked.ended he] at hfinal
    cases hmove with
    | locks | unlocks | leaves | tests | sends => exact (same rfl rfl).elim
    | pops pop sys st hcode hpop =>
      cases code_popped hcode hpop with
      | request hst =>
        cases q with
        | incomingRequests => simp [Touches, hst]
        | incomingResponses => exact absurd rfl hq
      | response hst =>
        cases q with
        | incomingRequests => exact absurd rfl hq
        | incomingResponses => simp [Touches, hst]
    | calls next m hcode =>
      by_cases hst : s.statement = .finish
      · obtain ⟨hresponses, hrequests⟩ := mainStep_finish_queues (L := L) (c := c)
          (hpc.trans (by rw [hst]; rfl))
        cases q with
        | incomingRequests =>
          simp only [Touches, hst, true_and]
          by_contra ht
          exact hq (hrequests ht fun hj => by simp [hinv.talker hj] at hfinal)
        | incomingResponses => exact absurd hresponses hq
      · obtain ⟨hrequests, hresponses⟩ := mainStep_sameQueues (L := L) (c := c) hcode hst hinv hpc
        exact (same hrequests hresponses).elim
  · cases hmove with
    | locked | notified | woken | unlocked | mlocks | munlocks | sigterm =>
      exact (same rfl rfl).elim
    | handed e sys hstep hhands hquiet hin =>
      refine ⟨.talker, rfl, ?_⟩
      cases q with
      | incomingRequests => exact ⟨rfl, hin⟩
      | incomingResponses =>
        have hresponses : sys.agent.incomingResponses = s.system.agent.incomingResponses := by
          rw [hstep.agent.1]
        exact absurd hresponses hq
    | posted u ret button a ha hin =>
      refine ⟨.dialog u, rfl, ?_⟩
      obtain ⟨ui, -, -, rfl⟩ := postStep_spec ha
      cases q with
      | incomingRequests => exact absurd rfl hq
      | incomingResponses => exact ⟨rfl, hin⟩
    | thread e sys hstep hhands =>
      have hsilent := threadStep_silent hstep (Or.inl hhands)
      exact (same (by simp only; rw [hsilent]) (by simp only; rw [hsilent])).elim
    | thrown x sys hstep | unwound x sys hstep =>
      have hsilent := threadStep_silent hstep (Or.inr ⟨x, rfl⟩)
      exact (same (by simp only; rw [hsilent]) (by simp only; rw [hsilent])).elim
    | threw u a ha | threwLocked u a ha =>
      obtain ⟨ui, -, -, rfl⟩ := throwStep_spec ha
      exact (same rfl rfl).elim
    | finished u a ha =>
      obtain ⟨ui, -, -, rfl⟩ := finishStep_spec ha
      exact (same rfl rfl).elim

/-- **No races.** The mutexes are never misused and nothing is taken from an empty queue. Two
threads are never both about to touch the same queue, and only a thread that touches a queue changes
it. The main thread does not own the mutex while it calls anything outside of `run`. -/
theorem race_free (h : Reachable L Run.always s) :
    s.statement ≠ .undefined ∧
      (∀ q t t', s.Touches q t → s.Touches q t' → t = t') ∧
      (∀ q l s', step L l s = some s' → ¬ q.Same s.system.agent s'.system.agent →
        ∃ t, l.actor = some t ∧ s.Touches q t) ∧
      ∀ next, code s.statement = .call next → s.mutex.owner ≠ some .main := by
  have hlocked := (locked h).2
  refine ⟨?_, ?_, fun q l s' hs hq => touches_of_change h hs hq, ?_⟩
  · intro hst
    have hexpects := hlocked.expects
    rw [hst] at hexpects
    exact hexpects
  · -- `finish` does not meet the talker
    have alone : ∀ {q t}, s.Touches q t → q = .incomingRequests → s.statement = .finish →
        s.system.agent.talker = .finished → t = .main := by
      intro q t ht hq hst htalker
      have hpc : s.system.agent.pc = .stopped := by
        rw [hlocked.place (by simp [hst]), hst]
        rfl
      have hout := (talker_outside h (by rw [hpc]; rfl) htalker).1
      cases t with
      | main => rfl
      | talker => exact absurd ht.2 (by simp [hout])
      | dialog u => exact absurd ht.1 (by simp [hq])
    intro q t t' ht ht'
    rcases ht.inside hlocked with hin | ⟨rfl, hq, hst, htalker⟩
    · rcases ht'.inside hlocked with hin' | ⟨rfl, hq, hst, htalker⟩
      · exact hlocked.guards.exclusive hin hin'
      · exact alone ht hq hst htalker
    · exact (alone ht' hq hst htalker).symm
  · intro next hcode howner
    have howns : s.owns := (hlocked.guards .main).1 howner
    have := (code_call hcode hlocked.expects).1
    simp [howns] at this

/-- The main thread is about to take a question that the talker has pushed, while the talker comes
with the next message. -/
theorem race_free_second : ∃ s, Reachable .lp64 Run.always s ∧
    s.Touches .incomingRequests .main ∧ s.calling .talker ∧
    ∀ t, s.Touches .incomingRequests t → .main = t := by
  obtain ⟨s, hs, hst⟩ : ∃ s, Reachable .lp64 Run.always s ∧
      (s.statement, s.calling .talker) = (.popRequest, true) :=
    Run.Reachable.exists_of_exec
      [tick, tick, tick, tick, .thread (.agentInitialize true),
        .thread (.getRequest (some ⟨.ACTION, 1, some question⟩)), .thread (.construct none),
        .lock .talker, .thread (.handle none), .notify .talker, .unlock .talker, .thread .proceed,
        .thread (.getRequest (some ⟨.CANCEL, 1, none⟩)), .thread (.construct none),
        tick, tick, tick, tick, tick] (by decide +kernel)
  rw [Prod.mk.injEq] at hst
  have htouches : s.Touches .incomingRequests .main := by
    simp only [Touches, hst.1]
  exact ⟨s, hs, htouches, hst.2, fun t ht => (race_free hs).2.1 _ _ _ htouches ht⟩

/-! ### The end of the mutexes -/

/-- The one call of the main thread after `run`. -/
theorem code_call_stopped {next : Pc → Statement} (hcode : code st = .call next)
    (hpc : st.pc = .stopped) : st = .finish := by
  cases st <;> simp_all [code, Statement.pc]

/-- The last step of a run that comes to the end of `finish`. -/
theorem last_finish (h : Reachable L Run.always s) (hpc : s.system.agent.pc = .finished) :
    ∃ s₀ c m, Reachable L Run.always s₀ ∧ s₀.system.agent.pc = .stopped ∧ s₀.CallEnds L c m ∧
      s₀.statement = .finish ∧ s = { s₀ with
        system.agent := Agent.mainStep L c s₀.system.agent
        statement := .ended
        talkerMutex := m
        sending := none } := by
  cases h with
  | start => simp [new, System.new, Agent.new] at hpc
  | @step s₀ _ l hr _ hs =>
    have hlocked := (locked hr).2
    have elsewhere : ∀ {st : Statement}, st.pc ≠ .finished := by
      intro st
      cases st <;> simp [Statement.pc]
    obtain ⟨hfinal, ⟨c, rfl, hmove⟩ | ⟨-, hmove⟩⟩ := step_moves hlocked hs
    · cases hmove with
      | locks | unlocks | leaves | tests | pops => exact (elsewhere hpc).elim
      | sends =>
        have hpc₀ : s₀.system.agent.pc = .finished := hpc
        rw [hpc₀] at hfinal
        simp [Pc.isFinal] at hfinal
      | calls next m hcode _ hends =>
        have hstopped := stopped_of_ended (sound_of_running hr hfinal).inv hfinal (Or.inl hpc)
        have hplace : s₀.system.agent.pc = s₀.statement.pc := hlocked.place fun he => by
          simp [hlocked.ended he] at hfinal
        have hst := code_call_stopped hcode (hplace.symm.trans hstopped)
        rw [hst, code, Instruction.call.injEq] at hcode
        subst hcode
        exact ⟨s₀, c, m, hr, hstopped, hends, hst, rfl⟩
    · rw [hmove.alongside.pc] at hpc
      simp [hpc, Pc.isFinal] at hfinal

/-- `finish` comes to its end when it can join the thread of `CynaraTalker`, and the dialogs are
done. -/
theorem finish_joins {a : Agent} (hinv : Inv a) (hpc : a.pc = .stopped)
    (hfinish : (Agent.mainStep L c a).pc = .finished) :
    a.talker = .finished ∧ ∀ u ui, a.dialogs.objects.cell u = some ui → ui.Done := by
  obtain ⟨ret, a', hrun, -, hret, -⟩ := finish_returns hinv hpc
  refine hret.1 ?_
  simp only [Agent.mainStep, hpc, call] at hfinish
  rw [bind_ok hrun] at hfinish
  cases ret with
  | true => rfl
  | false =>
    have hpc : Pc.exited = Pc.finished := hfinish
    simp at hpc

/-- Nobody owns a mutex, and nobody is left who could lock one: the threads of `CynaraTalker` and of
the dialogs have returned and were joined. -/
structure Deserted (s : Process) : Prop where
  mutex : s.mutex.owner = none
  talkerMutex : s.talkerMutex.owner = none
  talker : s.system.thread.point = .returned ∧ s.system.agent.talker = .joined
  mlocks : s.sending = none ∧ s.closing = false
  dialogs : ∀ u, s.system.agent.dialogs.objects.cell u = none
  joined : ∀ u i p, .started i p ∈ s.system.agent.dialogs.story u →
    .joined ∈ s.system.agent.dialogs.story u
  handlers : ∀ t, s.handler t = .outside ∧ s.calling t = false

/-- **The mutexes outlive their users.** When `finish` has come to its end, nobody owns a mutex, no
thread is in a handler or in the scope of a `mlock`, and all threads but the main thread have
returned and were joined. -/
theorem outlived (h : Reachable L Run.always s) (hpc : s.system.agent.pc = .finished) :
    Deserted s := by
  have hlocked := (locked h).2
  have hinv : Inv s.system.agent := by
    rcases System.sound (locked h).1 with hcrash | hsound
    · simp [hcrash] at hpc
    · exact hsound.inv
  obtain ⟨hjoined, -, -, hUIs⟩ := hinv.finished hpc
  have hgone : ∀ u, s.system.agent.dialogs.objects.cell u = none := by
    intro u
    by_contra hne
    obtain ⟨ui, hu⟩ := Option.ne_none_iff_exists'.1 hne
    simpa [hUIs] using hinv.wired.stored.2 ⟨ui, hu, rfl⟩
  -- before its last step `finish` has waited for the talker, and was in no `sendResponse`
  obtain ⟨houtside, hreturned, hclosing⟩ : (∀ t, s.handler t = .outside) ∧
      s.system.thread.point = .returned ∧ s.closing = false := by
    obtain ⟨s₀, c, m, hr, hstopped, hends, hst, rfl⟩ := last_finish h hpc
    have hlocked₀ := (locked hr).2
    have hfinal : s₀.system.agent.pc.isFinal = false := by rw [hstopped]; rfl
    obtain ⟨htalker, hdone⟩ := finish_joins (sound_of_running hr hfinal).inv hstopped hpc
    obtain ⟨hout, hreturned⟩ := talker_outside hr hfinal htalker
    refine ⟨fun t => ?_, hreturned, ?_⟩
    · cases t with
      | main => exact hlocked₀.main
      | talker => exact hout
      | dialog u =>
        by_contra hin
        obtain ⟨ui, hu, ht⟩ := hlocked₀.fits hfinal (.dialog u) hin
        rw [(hdone u ui hu).2] at ht
        cases hh : s₀.handler (.dialog u) <;> rw [hh] at ht <;> simp [Handler.threadState] at ht
    · cases hends with
      | quiet _ hjoins => simpa [joins, hst, htalker] using hjoins
      | sent hsending =>
        have := hlocked₀.sending (by simp [hsending])
        simp [hst, Statement.sends] at this
  have hended : s.statement = .ended := by
    by_contra hne
    rw [hlocked.place hne] at hpc
    cases hst : s.statement <;> simp [hst, Statement.pc] at hpc
  have hsending : s.sending = none := by
    by_contra hne
    have := hlocked.sending (Option.isSome_iff_ne_none.2 hne)
    simp [hended, Statement.sends] at this
  refine
    { mutex := ?_
      talkerMutex := ?_
      talker := ⟨hreturned, hjoined⟩
      mlocks := ⟨hsending, hclosing⟩
      dialogs := hgone
      joined := fun u i p hu => List.count_pos_iff.1 (by
        rw [hinv.joined_once hUIs hu]
        exact Nat.one_pos)
      handlers := fun t => ⟨houtside t, ?_⟩ }
  · by_contra hne
    obtain ⟨t, howner⟩ := Option.ne_none_iff_exists'.1 hne
    rcases (inside_iff hlocked.main).1 ((hlocked.guards t).1 howner) with ⟨-, howns⟩ | hin
    · have hexpects := hlocked.expects
      rw [hended] at hexpects
      exact absurd hexpects (by simp [howns, Statement.Expects])
    · exact hin (houtside t)
  · by_contra hne
    obtain ⟨t, howner⟩ := Option.ne_none_iff_exists'.1 hne
    have hin := (hlocked.mguards t).1 howner
    cases t <;> simp [mlocked, hsending, hclosing] at hin
  · cases t with
    | main => rfl
    | talker => simp [calling, hreturned, Process.hands]
    | dialog u => simp [calling, hgone]

/-- A question is answered, then cynara goes away, and the agent finishes. -/
theorem outlived_answered : ∃ s, Reachable .lp64 Run.always s ∧ s.system.agent.pc = .finished ∧
    .started 1 0 ∈ s.system.agent.dialogs.story 0 ∧ Deserted s := by
  obtain ⟨s, hs, hst⟩ : ∃ s, Reachable .lp64 Run.always s ∧
      (s.system.agent.pc, decide (.started 1 0 ∈ s.system.agent.dialogs.story 0)) =
        (.finished, true) :=
    Run.Reachable.exists_of_exec
      ([tick, tick, tick, tick, .thread (.agentInitialize true),
        .thread (.getRequest (some ⟨.ACTION, 1, some question⟩)), .thread (.construct none),
        .lock .talker, .thread (.handle none), .notify .talker, .unlock .talker,
        .thread .proceed] ++
      List.replicate 8 tick ++ [.lock (.dialog 0), .post 0 0 4, .notify (.dialog 0),
        .unlock (.dialog 0), .finish 0, .thread (.getRequest none)] ++
      List.replicate 16 tick ++ [.lock .talker, .thread .proceed, .notify .talker, .unlock .talker,
        .thread .proceed, .mlock, .thread .proceed, .thread .proceed, .munlock] ++
      List.replicate 11 tick) (by decide +kernel)
  simp only [Prod.mk.injEq, decide_eq_true_eq] at hst
  exact ⟨s, hs, hst.1, hst.2, outlived hs hst.1⟩

end AskUser.Process
