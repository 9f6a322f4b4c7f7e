import AskUser.LockedMoves

/-!
# The critical sections are atomic

In the `System` a queue is read in one step. In the process the main thread can be interrupted
between any two statements, and the other threads while they push. Where the invariant of the lock
holds, every step of the process is one of the system or concerns the locks alone (`step_refines`,
`MainMove.refines`), so a run of the process is a run of the system (`atomic`). What is proved of
the system and of the agent holds of the process.
-/

namespace AskUser.Process
open Agent CynaraTalker Locks Objects Fallible
open AskUser.System (inLoop)

variable {L : Limits} {c : Choice} {s s' : Process} {t : ThreadId} {sys sys' : System}
  {st next : Statement} {a : Agent}

/-! ### Refinement -/

/-- The step of the system that a step of the process can be. -/
def Label.system : Label → Option System.Label
  | .main c => some (.agent (.main c))
  | .thread e => some (.thread e)
  | .post u ret button => some (.agent (.post u ret button))
  | .postThrows u => some (.agent (.postThrows u))
  | .finish u => some (.agent (.finish u))
  | .sigterm => some (.agent .sigterm)
  | .lock _ | .notify _ | .unlock _ | .mlock | .munlock => none

/-- A condition on the steps of the system, for the steps of the process. -/
def observed (cond : System.Label → System → Prop) (l : Label) (s : Process) : Prop :=
  ∀ l' ∈ l.system, cond l' s.system

theorem mainStep_outer (hpc : a.pc = .outer) :
    Agent.mainStep L c a = { a with pc := if a.stopFlag then .stopped else .waiting } := by
  simp only [Agent.mainStep, hpc, call]
  rw [get_bind]
  split_ifs <;> rfl

theorem mainStep_waiting (hpc : a.pc = .waiting) :
    Agent.mainStep L c a = { a with pc := if a.stopFlag then .stopped else .inner } := by
  simp only [Agent.mainStep, hpc, call]
  rw [get_bind]
  split_ifs <;> rfl

theorem mainStep_noRequest (hpc : a.pc = .inner) (hq : a.store.incomingRequests = []) :
    Agent.mainStep L c a =
      { a with pc := if a.incomingResponses = [] then .outer else .responses } := by
  simp only [Agent.mainStep, hpc, call]
  rw [get_bind]
  simp only [hq]
  rw [get_bind]
  split_ifs <;> rfl

theorem mainStep_poppedResponse {r : Response} {rest : List Response} (hpc : a.pc = .responses)
    (hq : a.incomingResponses = r :: rest) :
    Agent.mainStep L c a = { a with
      incomingResponses := rest
      answers := a.answers.note r.postedBy (.popped r)
      pc := .response r } := by
  simp only [Agent.mainStep, hpc, call]
  rw [get_bind]
  simp only [hq]
  rfl

/-- What the main thread reads of the queues and the flag is a step of the agent, or the agent is
not so far yet. -/
theorem test_refines {test : Agent → Statement} (hcode : code st = .test test)
    (hpc : a.pc = st.pc) {owns : Bool} (h : st.Expects owns a) : (test a).pc = a.pc ∨
      System.taking (.main c) a = none ∧ Agent.mainStep L c a = { a with pc := (test a).pc } := by
  have taking : a.store.incomingRequests = [] ∨ a.pc ≠ .inner →
      System.taking (.main c) a = none := by
    rintro (hq | hpc)
    · simp [System.taking, hq]
    · simp [System.taking, hpc]
  cases st <;> simp only [code, Instruction.test.injEq, reduceCtorEq] at hcode <;> subst hcode
  case whileRunning =>
    refine Or.inr ⟨taking (Or.inr (by simp [hpc, Statement.pc])), ?_⟩
    simp only [mainStep_outer hpc]
    split_ifs <;> rfl
  case asleep n => exact Or.inl hpc.symm
  case ifStopped =>
    refine Or.inr ⟨taking (Or.inr (by simp [hpc, Statement.pc])), ?_⟩
    simp only [mainStep_waiting hpc]
    split_ifs <;> rfl
  case whileRequests =>
    left
    rw [hpc]
    simp only
    split_ifs <;> rfl
  case orResponses =>
    by_cases hr : a.incomingResponses = []
    · refine Or.inr ⟨taking (Or.inl h.2), ?_⟩
      simp [mainStep_noRequest hpc h.2, hr, Statement.pc]
    · exact Or.inl (by simp [hr, hpc, Statement.pc])
  case ifRequest =>
    by_cases hq : a.store.incomingRequests = []
    · refine Or.inr ⟨taking (Or.inl hq), ?_⟩
      have hr : a.incomingResponses ≠ [] := h.2.resolve_left fun hne => hne hq
      simp [mainStep_noRequest hpc hq, hq, hr, Statement.pc]
    · exact Or.inl (by simp [hq, hpc, Statement.pc])
  case ifResponse =>
    by_cases hr : a.incomingResponses = []
    · refine Or.inr ⟨taking (Or.inr (by simp [hpc, Statement.pc])), ?_⟩
      simp [mainStep_noResponse hpc hr, hr, Statement.pc]
    · exact Or.inl (by simp [hr, hpc, Statement.pc])

theorem system_main (hfinal : sys.agent.pc.isFinal = false) :
    System.step L (.agent (.main c)) sys = some { sys with
      agent := Agent.mainStep L c sys.agent
      taken := sys.taken ++ (System.taking (.main c) sys.agent).toList } := by
  simp [System.step, Agent.step, hfinal]

/-- A pop is a step of the agent. -/
theorem pop_refines {pop : System → Option (System × Statement)} (hcode : code st = .pop pop)
    (hpop : pop sys = some (sys', next)) (hpc : sys.agent.pc = st.pc) :
    System.step L (.agent (.main c)) sys = some { sys' with agent.pc := next.pc } := by
  have hfinal : sys.agent.pc.isFinal = false := by
    rw [hpc]
    rcases code_pop hcode with ⟨rfl, -⟩ | ⟨rfl, -⟩ <;> rfl
  rw [system_main hfinal]
  cases code_popped hcode hpop with
  | request hst hq =>
    have hinner : sys.agent.pc = .inner := by rw [hpc, hst]; rfl
    simp [System.mainStep_popped hinner hq, System.taking, hinner, hq, Statement.pc]
  | response hst hq =>
    have hresponses : sys.agent.pc = .responses := by rw [hpc, hst]; rfl
    simp [mainStep_poppedResponse hresponses hq, System.taking, hresponses, Statement.pc]

theorem MainMove.refines (hm : MainMove L c s s') (h : Locked s)
    (hfinal : s.system.agent.pc.isFinal = false) : s'.system = s.system ∨
      System.step L (.agent (.main c)) s.system = some s'.system := by
  have hpc : s.system.agent.pc = s.statement.pc := h.place fun he => by
    simp [h.ended he] at hfinal
  have stays : ∀ {next : Statement}, next.pc = s.statement.pc →
      (s.goto next).system = s.system := by
    intro next hnext
    simp only [goto, hnext, ← hpc]
  cases hm with
  | locks next hcode => exact Or.inl (stays (code_lock hcode).1)
  | unlocks next hcode =>
    rcases hcode with hcode | hcode
    · exact Or.inl (stays (code_unlock hcode).1)
    · exact Or.inl (stays (code_destroy hcode).1)
  | leaves next hcode => exact Or.inl (stays (code_destroy hcode).1)
  | tests test hcode =>
    rcases test_refines (L := L) (c := c) hcode hpc h.expects with hsame | ⟨htaking, hstep⟩
    · exact Or.inl (stays (hsame.trans hpc))
    · right
      rw [system_main hfinal, htaking, hstep]
      simp [goto]
  | pops pop sys st hcode hpop => exact Or.inr (pop_refines hcode hpop hpc)
  | sends => exact Or.inl rfl
  | calls next m hcode =>
    right
    have htaking : System.taking (.main c) s.system.agent = none := by
      have hinner : s.system.agent.pc ≠ .inner := by
        rw [hpc]
        intro hinner
        cases hst : s.statement <;> simp_all [code, Statement.pc]
      simp [System.taking, hinner]
    rw [system_main hfinal, htaking]
    simp

theorem release_system (s : Process) (t : ThreadId) : (s.release t).system = s.system := by
  unfold Process.release
  split <;> rfl

theorem push_system (hs : s.push t sys = some s') : s'.system = sys := by
  unfold push at hs
  split_ifs at hs
  rw [← Option.some.inj hs]

theorem threadStep_system {e : Event} (hs : s.threadStep e = some s') :
    System.threadStep e s.system = some s'.system := by
  unfold Process.threadStep at hs
  by_cases hmlock : s.system.thread.point = .finish ∧ s.closing = false
  · simp [hmlock] at hs
  rw [if_neg hmlock] at hs
  obtain ⟨sys, hsys, hs⟩ := Option.bind_eq_some_iff.1 hs
  rw [hsys]
  split_ifs at hs
  · split at hs
    · rw [← Option.some.inj hs]
    · rw [← Option.some.inj hs, release_system]
    · simp at hs
    · rw [push_system hs]
  · rw [← Option.some.inj hs]

theorem throwStep_system {u : UIPtr} (hs : s.throwStep u sys = some s') : s'.system = sys := by
  unfold Process.throwStep at hs
  split at hs
  · rw [← Option.some.inj hs]
  · rw [← Option.some.inj hs, release_system]
  · simp at hs

/-- What the other threads do is a step of the system, or concerns the locks alone. -/
theorem step_refines {l : Label} (hl : ∀ c, l ≠ .main c) (hs : step L l s = some s') :
    s'.system = s.system ∨ ∃ l', l.system = some l' ∧
      System.step L l' s.system = some s'.system := by
  unfold step at hs
  split_ifs at hs with hfinal
  cases l with
  | main c => exact absurd rfl (hl c)
  | lock t =>
    left
    simp only [lockStep] at hs
    split_ifs at hs
    split at hs
    · exact Option.some.inj hs ▸ rfl
    · simp at hs
    · exact Option.some.inj hs ▸ rfl
  | notify t =>
    left
    simp only [notifyStep] at hs
    split_ifs at hs
    split at hs <;> exact Option.some.inj hs ▸ rfl
  | unlock t =>
    left
    simp only [unlockStep] at hs
    split_ifs at hs
    exact Option.some.inj hs ▸ release_system s t
  | thread e =>
    refine Or.inr ⟨_, rfl, ?_⟩
    rw [System.step, if_neg hfinal]
    exact threadStep_system hs
  | post u ret button =>
    obtain ⟨sys, hsys, hs⟩ := Option.bind_eq_some_iff.1 hs
    exact Or.inr ⟨_, rfl, by rw [hsys, push_system hs]⟩
  | postThrows u =>
    obtain ⟨sys, hsys, hs⟩ := Option.bind_eq_some_iff.1 hs
    exact Or.inr ⟨_, rfl, by rw [hsys, throwStep_system hs]⟩
  | mlock =>
    left
    simp only [mlockStep] at hs
    split_ifs at hs
    split at hs
    · exact Option.some.inj hs ▸ rfl
    · simp at hs
    · exact Option.some.inj hs ▸ rfl
  | munlock =>
    left
    simp only [munlockStep] at hs
    split_ifs at hs
    split at hs <;> exact Option.some.inj hs ▸ rfl
  | finish u =>
    simp only at hs
    split_ifs at hs
    obtain ⟨sys, hsys, rfl⟩ := Option.map_eq_some_iff.1 hs
    exact Or.inr ⟨_, rfl, hsys⟩
  | sigterm =>
    obtain ⟨sys, hsys, rfl⟩ := Option.map_eq_some_iff.1 hs
    exact Or.inr ⟨_, rfl, hsys⟩

/-- A call that is in `sendResponse` goes on as it has begun. -/
theorem Mlocked.same_choice (h : Mlocked s) (hs : s.mainStep L c = some s') :
    ∀ c' ∈ s.sending, c = c' := by
  intro c' hc'
  obtain ⟨next, hcode⟩ := code_sends (h.sending (Option.isSome_of_mem hc'))
  by_contra hne
  simp [Process.mainStep, hcode, Process.callStep, Option.mem_def.1 hc', hne] at hs

theorem mainMove_of_step (h : Locked s) (hfinal : s.system.agent.pc.isFinal = false)
    (hs : step L (.main c) s = some s') : MainMove L c s s' := by
  have hstep : s.mainStep L c = some s' := by simpa [step, hfinal] using hs
  rcases h.mainStep (L := L) (h.same_choice hstep) with ⟨s₁, hs₁, hmove⟩ | ⟨-, hnone⟩ | he
  · exact Option.some.inj (hs₁.symm.trans hstep) ▸ hmove
  · simp [hnone] at hstep
  · simp [h.ended he] at hfinal

/-- **What a step can do**, by the thread that takes it. -/
theorem step_moves (h : Locked s) {l : Label} (hs : step L l s = some s') :
    s.system.agent.pc.isFinal = false ∧
      ((∃ c, l = .main c ∧ MainMove L c s s') ∨ (∀ c, l ≠ .main c) ∧ OtherMove s l s') := by
  have hfinal : s.system.agent.pc.isFinal = false := by
    by_contra hne
    simp [step, hne] at hs
  refine ⟨hfinal, ?_⟩
  by_cases hmain : ∃ c, l = .main c
  · obtain ⟨c, rfl⟩ := hmain
    exact Or.inl ⟨c, rfl, mainMove_of_step h hfinal hs⟩
  · have hother : ∀ c, l ≠ .main c := fun c hc => hmain ⟨c, hc⟩
    exact Or.inr ⟨hother, (step_other h hother hs).2⟩

/-- **The invariant** holds in every state of every run, and the run is one of the system. -/
theorem locked_refines {cond : System.Label → System → Prop} (h : Reachable L (observed cond) s) :
    System.Reachable L cond s.system ∧ Locked s := by
  induction h with
  | start => exact ⟨.start, locked_new⟩
  | @step s s' l hr hl hs ih =>
    obtain ⟨hr', hlocked⟩ := ih
    obtain ⟨hfinal, hmoves⟩ := step_moves hlocked hs
    have hsound : System.Sound s.system := (System.sound hr').resolve_left fun hcrash => by
      simp [hcrash, Pc.isFinal] at hfinal
    rcases hmoves with ⟨c, rfl, hmove⟩ | ⟨hother, hmove⟩
    · refine ⟨?_, hlocked.mainMove hsound.inv hfinal hmove⟩
      rcases hmove.refines hlocked hfinal with hsame | hsys
      · rw [hsame]
        exact hr'
      · exact hr'.step _ (hl _ rfl) hsys
    · refine ⟨?_, hlocked.otherMove hsound hfinal hmove⟩
      rcases step_refines hother hs with hsame | ⟨l', hl', hsys⟩
      · rw [hsame]
        exact hr'
      · exact hr'.step _ (hl _ hl') hsys

/-! ### Refinement, for the runs of the process -/

theorem locked (h : Reachable L Run.always s) :
    System.Reachable L Run.always s.system ∧ Locked s :=
  locked_refines (h.mono fun _ _ _ _ _ => trivial)

theorem sound_of_running (h : Reachable L Run.always s)
    (hfinal : s.system.agent.pc.isFinal = false) : System.Sound s.system :=
  (System.sound (locked h).1).resolve_left fun hcrash => by simp [hcrash, Pc.isFinal] at hfinal

/-- **The critical sections are atomic.** A run of the process, with its threads interrupted
anywhere, is a run of the system; and what all steps of the one satisfy, they do in the other. -/
theorem atomic {cond : System.Label → System → Prop} (h : Reachable L (observed cond) s) :
    System.Reachable L cond s.system :=
  (locked_refines h).1

/-- The talker is interrupted before its push, while the main thread waits for the mutex. -/
theorem atomic_interrupted : ∃ s, Reachable .lp64 (observed Run.always) s ∧
    s.handler .talker = .locked ∧ s.mainStep .lp64 ⟨0, 0, true⟩ = none ∧
    System.Reachable .lp64 Run.always s.system := by
  obtain ⟨s, hs, hst⟩ : ∃ s, Reachable .lp64 Run.always s ∧
      (s.handler .talker, (s.mainStep .lp64 ⟨0, 0, true⟩).isNone) = (.locked, true) :=
    Run.Reachable.exists_of_exec
      [tick, tick, .thread (.agentInitialize true),
        .thread (.getRequest (some ⟨.ACTION, 1, some question⟩)), .thread (.construct none),
        .lock .talker] (by decide +kernel)
  simp only [Prod.mk.injEq, Option.isNone_iff_eq_none] at hst
  have hs' : Reachable .lp64 (observed Run.always) s := hs.mono fun _ _ _ _ _ => trivial
  exact ⟨s, hs', hst.1, hst.2, atomic hs'⟩

end AskUser.Process
