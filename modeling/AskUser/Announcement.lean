import AskUser.Delivery

/-!
# The end of the thread of `CynaraTalker`

When `CynaraTalker::run` returns, two parts of the agent should know: `stop` waits for
`m_threadFinished`, and the main loop for a Close (`Announced`). `announced_iff` says in which runs
they do: cynara could be initialised, and no exception other than `TypeException` came up.

* `Due` and `Missed` are what the thread still owes, in a run where nothing of this has happened
  and in one where something has; a run keeps the one until it keeps the other;
* `Closing` and `remaining` are how the main thread ends its loop after a Close.
-/

namespace AskUser
open Agent CynaraTalker RequestType Objects

namespace System

variable {L : Limits} {s s' : System} {e : Event} {l : Label}

/-! ### The main loop after a Close -/

/-- The main thread is in the loop of `run`. -/
def inLoop : Pc → Bool
  | .stopped | .finished | .exited | .crashed _ => false
  | _ => true

/-- The Close is processed, or it was, or the loop is left. -/
def Closing (a : Agent) : Prop :=
  (∃ p, a.pc = .request p ∧ a.store.objects.cell p = some closeRequest) ∨
    (a.stopFlag ∧ a.pc = .outer) ∨ inLoop a.pc = false

/-- How far it is from a point of the loop to the next request, in steps. -/
def distance : Pc → ℕ
  | .request _ => 6
  | .responses => 5
  | .start | .response _ => 4
  | .outer | .cleanup => 3
  | .waiting => 2
  | .inner => 1
  | .stopped | .finished | .exited | .crashed _ => 0

/-- A bound for the steps that the main thread takes before it pops the last request. -/
def remaining (a : Agent) : ℕ := 6 * a.store.incomingRequests.length + distance a.pc

theorem mainStep_outer {c : Choice} {a : Agent} (hpc : a.pc = .outer) (hstop : a.stopFlag) :
    mainStep L c a = { a with pc := .stopped } := by
  simp only [mainStep, hpc, call]
  rw [Fallible.get_bind, if_pos hstop]
  rfl

theorem mainStep_distance {c : Choice} {a a' : Agent} (hs : MainStep L c a a')
    (hpc : a.pc ≠ .inner) (hloop : inLoop a'.pc) : distance a'.pc < distance a.pc := by
  cases hs with
  | clashed | exited | finished | thrown => simp [inLoop] at hloop
  | @moves pc hm =>
    generalize a.pc = pc₀ at hm hpc
    cases hm <;> simp_all [inLoop, distance]
  | popped hinner => exact absurd hinner hpc
  | start h | closed h | cancelled h | duplicate h | unknownCancel h | startFailed h | recorded h
  | poppedResponse h | answered h | unmatched h | cleaned h => simp [h, distance]

/-- What was left is not entered again. -/
theorem mainStep_left {c : Choice} {a a' : Agent} (hs : MainStep L c a a')
    (hleft : inLoop a.pc = false) : inLoop a'.pc = false := by
  cases hs with
  | clashed | exited | finished | thrown => rfl
  | @moves pc hm =>
    generalize a.pc = pc₀ at hm hleft
    cases hm <;> simp [inLoop] at hleft
  | start h | popped h | closed h | cancelled h | duplicate h | unknownCancel h | startFailed h
  | recorded h | poppedResponse h | answered h | unmatched h | cleaned h =>
    simp [h, inLoop] at hleft

/-- A Close leads out of the loop. -/
theorem Closing.main {c : Choice} {a : Agent} (h : Closing a)
    (hs : MainStep L c a (mainStep L c a)) : Closing (mainStep L c a) ∧
      (inLoop (mainStep L c a).pc → remaining (mainStep L c a) < remaining a) := by
  obtain ⟨p, hpc, hcell⟩ | ⟨hstop, hpc⟩ | hleft := h
  · generalize mainStep L c a = a' at hs
    have hclose : ∀ {p' r}, a.pc = .request p' → a.store.objects.cell p' = some r →
        r = closeRequest := by
      intro p' r hpc' hcell'
      obtain rfl : p = p' := by simpa [hpc] using hpc'
      exact Option.some.inj (hcell'.symm.trans hcell)
    cases hs with
    | closed =>
      refine ⟨Or.inr (Or.inl ⟨rfl, rfl⟩), fun _ => ?_⟩
      show 6 * a.store.incomingRequests.length + 3 < remaining a
      simp [remaining, hpc, distance]
    | cancelled hpc' hcell' hr | duplicate hpc' hcell' hr | unknownCancel hpc' hcell' hr
    | thrown hpc' hcell' hr | startFailed hpc' hcell' hr | clashed hpc' hcell' hr
    | recorded hpc' hcell' hr =>
      rw [hclose hpc' hcell'] at hr
      exact absurd hr (by simp [closeRequest])
    | @moves pc hm =>
      rw [hpc] at hm
      cases hm
    | start hpc' | popped hpc' | poppedResponse hpc' | answered hpc' | unmatched hpc'
    | cleaned hpc' | exited _ hpc' | finished _ hpc' => simp [hpc] at hpc'
  · rw [mainStep_outer hpc hstop]
    exact ⟨Or.inr (Or.inr rfl), by simp [inLoop]⟩
  · have hleft' := mainStep_left hs hleft
    exact ⟨Or.inr (Or.inr hleft'), by simp [hleft']⟩

theorem Closing.elsewhere {a a' : Agent} (h : Closing a) (helse : Elsewhere a a') :
    Closing a' := by
  obtain ⟨p, hpc, hcell⟩ | ⟨hstop, hpc⟩ | hleft := h
  · exact Or.inl ⟨p, helse.pc.trans hpc, by rw [helse.store, hcell]⟩
  · exact Or.inr (Or.inl ⟨helse.stopFlag hstop, helse.pc.trans hpc⟩)
  · exact Or.inr (Or.inr (by rw [helse.pc, hleft]))

theorem Closing.thread (h : Closing s.agent) (hs : ThreadStep s e s') : Closing s'.agent := by
  obtain ⟨hagent, hstore⟩ := hs.agent
  rw [hagent]
  obtain ⟨p, hpc, hcell⟩ | ⟨hstop, hpc⟩ | hleft := h
  · refine Or.inl ⟨p, hpc, ?_⟩
    show s'.agent.store.objects.cell p = _
    rcases hstore with hstore | ⟨r, hstore⟩
    · rw [hstore, hcell]
    · rw [hstore]
      show (if p = s.agent.store.objects.size then some r else s.agent.store.objects.cell p) = _
      rw [if_neg (Nat.ne_of_lt (Heap.lt_size hcell)), hcell]
  · exact Or.inr (Or.inl ⟨hstop, hpc⟩)
  · exact Or.inr (Or.inr hleft)

theorem mainStep_takes {c : Choice} {a : Agent} {r : Request} (h : taking (.main c) a = some r) :
    ∃ p, (mainStep L c a).pc = .request p ∧ (mainStep L c a).store.objects.cell p = some r := by
  unfold taking at h
  split at h
  · next _ p rest hmain hpc hq =>
    rw [mainStep_popped hpc hq]
    exact ⟨p, rfl, h⟩
  · exact absurd h (by simp)

/-- A Close that was taken is dealt with. -/
theorem closing_of_taken {cond : Label → System → Prop} (h : Reachable L cond s) :
    closeRequest ∈ s.taken → Closing s.agent := by
  induction h with
  | start => simp [new]
  | @step s s' l hr _ hs ih =>
    have hsound := sound_of_step hr hs
    cases l with
    | thread e =>
      intro hclose
      have hthread := (step_thread hs).2
      rw [hthread.taken] at hclose
      exact (ih hclose).thread hthread
    | agent l =>
      obtain ⟨hl, a, ha, rfl⟩ := step_agent hs
      intro hclose
      obtain ⟨-, ⟨c, rfl, rfl, hmain⟩ | ⟨hnot, helse⟩⟩ := agentStep_cases hsound.inv hl ha
      · rcases List.mem_append.1 hclose with hclose | hclose
        · exact ((ih hclose).main hmain).1
        · exact Or.inl (mainStep_takes (Option.mem_toList.1 hclose))
      · rw [taking_eq_none fun c hc => absurd hc (hnot c), Option.toList_none,
          List.append_nil] at hclose
        exact (ih hclose).elsewhere helse

/-! ### Leaving the loop -/

/-- A Close is queued, or it is dealt with. -/
def Leaving (a : Agent) : Prop := closeRequest ∈ queue a ∨ Closing a

theorem inLoop_of_final {pc : Pc} (h : pc.isFinal) : inLoop pc = false := by
  cases pc <;> simp [Pc.isFinal] at h <;> rfl

/-- **A step of the main thread** brings a Close closer. -/
theorem Leaving.main {c : Choice} {a : Agent} (h : Leaving a) (hinv : Inv a)
    (hs : MainStep L c a (mainStep L c a))
    (hinv' : (mainStep L c a).pc = .crashed .terminate ∨ Inv (mainStep L c a)) :
    Leaving (mainStep L c a) ∧
      (inLoop (mainStep L c a).pc → remaining (mainStep L c a) < remaining a) := by
  rcases h with hclose | hclosing
  · by_cases hpop : ∃ p rest, a.pc = .inner ∧ a.store.incomingRequests = p :: rest
    · obtain ⟨p, rest, hpc, hq⟩ := hpop
      rw [mainStep_popped hpc hq]
      constructor
      · obtain ⟨p', hp', hcell⟩ := List.mem_filterMap.1 hclose
        rw [hq, List.mem_cons] at hp'
        rcases hp' with rfl | hp'
        · exact Or.inr (Or.inl ⟨p', rfl, hcell⟩)
        · exact Or.inl (List.mem_filterMap.2 ⟨p', hp', hcell⟩)
      · intro _
        show 6 * rest.length + 6 < remaining a
        simp only [remaining, hq, hpc, distance, List.length_cons]
        omega
    · have hempty := empty_of_not_popped hpop
      have hpc : a.pc ≠ .inner := by
        intro hpc
        simp [queue, hempty hpc] at hclose
      cases hfinal : (mainStep L c a).pc.isFinal with
      | true =>
        have hleft := inLoop_of_final hfinal
        exact ⟨Or.inr (Or.inr (Or.inr hleft)), by simp [hleft]⟩
      | false =>
        refine ⟨Or.inl (queue_main hs hinv hinv' hempty hfinal ▸ hclose), fun hloop => ?_⟩
        have hdistance := mainStep_distance hs hpc hloop
        rw [remaining, remaining, (mainStep_not_popped hs hempty hfinal).1]
        omega
  · obtain ⟨hclosing', hless⟩ := hclosing.main hs
    exact ⟨Or.inr hclosing', hless⟩

theorem Leaving.elsewhere {a a' : Agent} (h : Leaving a) (helse : Elsewhere a a') :
    Leaving a' := by
  rcases h with hclose | hclosing
  · exact Or.inl (by rwa [queue, helse.store])
  · exact Or.inr (hclosing.elsewhere helse)

/-- The steps of the main thread in a run. -/
def mainSteps (ls : List Label) : ℕ := ls.countP fun l => match l with
  | .agent (.main _) => true
  | _ => false

theorem ThreadStep.not_returned (hs : ThreadStep s e s') : s.thread.point ≠ .returned := by
  cases hs with
  | freeCrashes hpoint => rcases hpoint with hpoint | hpoint <;> simp [hpoint]
  | initialized h | initFailed h | closesEarly h | receives _ h | receiveFailed h | closes h
  | dropped h | constructed h | constructThrows _ h | handled h | handleThrows _ h | released h
  | left h | finished h | announced h | copyCrashes h => simp [h]

/-- **A step** after the thread has returned. -/
theorem Leaving.step (h : Leaving s.agent) (hsound : Sound s) (hret : s.thread.point = .returned)
    (hs : step L l s = some s') : Leaving s'.agent ∧ s'.thread.point = .returned ∧
      (inLoop s'.agent.pc → inLoop s.agent.pc ∧
        remaining s'.agent + mainSteps [l] ≤ remaining s.agent) := by
  cases l with
  | thread e => exact absurd hret (step_thread hs).2.not_returned
  | agent l =>
    obtain ⟨hl, a, ha, rfl⟩ := step_agent hs
    obtain ⟨-, ⟨c, rfl, rfl, hmain⟩ | ⟨hnot, helse⟩⟩ := agentStep_cases hsound.inv hl ha
    · obtain ⟨hleaving, hless⟩ := h.main hsound.inv hmain (step_inv hsound.inv ha)
      refine ⟨hleaving, hret, fun hloop => ⟨?_, hless hloop⟩⟩
      by_contra hleft
      rw [Bool.not_eq_true] at hleft
      simp [mainStep_left hmain hleft] at hloop
    · refine ⟨h.elsewhere helse, hret, fun hloop => ?_⟩
      have hnone : mainSteps [.agent l] = 0 := by
        cases l with
        | main c => exact absurd rfl (hnot c)
        | _ => rfl
      rw [hnone]
      simp only [remaining, helse.pc, helse.store] at hloop ⊢
      exact ⟨hloop, Nat.le_refl _⟩

/-- **A run** after the thread has returned: each step of the main thread counts. -/
theorem leaving_run {ls : List Label} (hr : Reachable L Run.always s) (h : Leaving s.agent)
    (hret : s.thread.point = .returned) (hs : Run.exec (step L) Run.always ls s = some s') :
    inLoop s'.agent.pc → inLoop s.agent.pc ∧
      remaining s'.agent + mainSteps ls ≤ remaining s.agent := by
  induction ls generalizing s with
  | nil =>
    obtain rfl : s = s' := by simpa [Run.exec] using hs
    exact fun hloop => ⟨hloop, Nat.le_refl _⟩
  | cons l ls ih =>
    have htrue : Run.always l s := trivial
    rw [Run.exec, if_pos htrue] at hs
    obtain ⟨s₁, hs₁, hs⟩ := Option.bind_eq_some_iff.1 hs
    obtain ⟨hleaving, hret₁, hless⟩ := h.step (sound_of_step hr hs₁) hret hs₁
    intro hloop
    obtain ⟨hloop₁, hle⟩ := ih (hr.step l htrue hs₁) hleaving hret₁ hs hloop
    obtain ⟨hloop₀, hle₁⟩ := hless hloop₁
    refine ⟨hloop₀, ?_⟩
    have hcount : mainSteps (l :: ls) = mainSteps [l] + mainSteps ls := by
      rw [mainSteps, ← List.singleton_append, List.countP_append, mainSteps, mainSteps]
    omega

/-! ### What the thread owes -/

/-- Cynara could not be initialised, or an exception other than `TypeException` came up. -/
def Fails : Label → Prop
  | .thread (.agentInitialize false) | .thread (.construct (some _))
  | .thread (.handle (some _)) => True
  | _ => False

/-- While nothing fails: the thread still owes the promise, and the Close until its loop is over. -/
def Due (t : Thread) : Prop :=
  match t.point with
  | .agentInitialize | .getRequest | .construct _ _ | .release | .receiveFailed =>
    t.promises = 0 ∧ closeRequest ∉ t.handed
  | .handle r => t.promises = 0 ∧ closeRequest ∉ t.handed ∧ r ≠ closeRequest
  | .leave | .finish | .setValue => t.promises = 0 ∧ closeRequest ∈ t.handed
  | .returned => t.promises = 1 ∧ closeRequest ∈ t.handed
  | .initFailed => False
  | .crashed => True

/-- After a failure: the promise or the Close is not on the rest of the way. -/
def Missed (t : Thread) : Prop :=
  match t.point with
  | .initFailed => t.promises = 0
  | .leave | .finish | .setValue => closeRequest ∉ t.handed
  | .returned => t.promises = 0 ∨ closeRequest ∉ t.handed
  | .crashed => True
  | _ => False

theorem ne_closeRequest {type : CynaraMsgType} {r : Request}
    (h : cynaraType2AgentType type = some r.type) : r ≠ closeRequest := by
  rintro rfl
  unfold cynaraType2AgentType at h
  split at h <;> simp [closeRequest] at h

theorem ThreadStep.due (hs : ThreadStep s e s') (h : Due s.thread) (hok : ¬ Fails (.thread e)) :
    Due s'.thread := by
  unfold Due at h
  cases hs with
  | initialized hpoint =>
    rw [hpoint] at h
    exact h
  | initFailed | constructThrows | handleThrows => exact absurd trivial hok
  | closesEarly hpoint =>
    rw [hpoint] at h
    exact h.elim
  | receives m hpoint =>
    rw [hpoint] at h
    rw [Thread.obtain_frame]
    exact h
  | receiveFailed hpoint | dropped hpoint | finished hpoint =>
    rw [hpoint] at h
    exact h
  | closes hpoint =>
    rw [hpoint] at h
    exact ⟨h.1, by simp [goto, hand]⟩
  | constructed hpoint htype hcopy =>
    rw [hpoint] at h
    rw [Thread.copyData_frame hcopy]
    exact ⟨h.1, h.2, ne_closeRequest htype⟩
  | handled hpoint =>
    rw [hpoint] at h
    obtain ⟨hpromises, hclose, hr⟩ := h
    exact ⟨hpromises, by simp [hand, hclose, hr.symm]⟩
  | released hpoint hfree | left hpoint hfree =>
    rw [hpoint] at h
    rw [Thread.freeData_frame hfree]
    exact h
  | announced hpoint =>
    rw [hpoint] at h
    exact ⟨by simp [h.1], h.2⟩
  | copyCrashes | freeCrashes => exact trivial

theorem ThreadStep.missed_of_fails (hs : ThreadStep s e s') (h : Due s.thread)
    (hfails : Fails (.thread e)) : Missed s'.thread := by
  unfold Due at h
  cases hs with
  | initFailed hpoint =>
    rw [hpoint] at h
    exact h.1
  | constructThrows x hpoint =>
    rw [hpoint] at h
    exact h.2
  | handleThrows x hpoint =>
    rw [hpoint] at h
    exact h.2.1
  | initialized | closesEarly | receives | receiveFailed | closes | dropped | constructed | handled
  | released | left | finished | announced | copyCrashes | freeCrashes => exact hfails.elim

theorem ThreadStep.missed (hs : ThreadStep s e s') (h : Missed s.thread) : Missed s'.thread := by
  unfold Missed at h
  cases hs with
  | closesEarly hpoint =>
    rw [hpoint] at h
    exact Or.inl h
  | left hpoint hfree =>
    rw [hpoint] at h
    rw [Thread.freeData_frame hfree]
    exact h
  | finished hpoint =>
    rw [hpoint] at h
    exact h
  | announced hpoint =>
    rw [hpoint] at h
    exact Or.inr h
  | copyCrashes | freeCrashes => exact trivial
  | initialized hpoint | initFailed hpoint | receives _ hpoint | receiveFailed hpoint
  | closes hpoint | dropped hpoint | constructed hpoint | constructThrows _ hpoint
  | handled hpoint | handleThrows _ hpoint | released hpoint =>
    rw [hpoint] at h
    exact h.elim

/-- A run owes what is due until something fails, and misses something from there on. -/
theorem due_or_missed {ls : List Label} (h : Run.exec (step L) Run.always ls new = some s) :
    (∀ l ∈ ls, ¬ Fails l) ∧ Due s.thread ∨ (∃ l ∈ ls, Fails l) ∧ Missed s.thread := by
  have hnew : Due new.thread := ⟨rfl, List.not_mem_nil⟩
  refine (Run.exec_marked Fails (fun s => Due s.thread) (fun s => Missed s.thread)
    (fun l s s' hdue hok hs => ?_) (fun l s s' hdue hfails hs => ?_)
    (fun l s s' hmissed hs => ?_) h).1 hnew
  · cases l with
    | agent l =>
      obtain ⟨-, a, -, rfl⟩ := step_agent hs
      exact hdue
    | thread e => exact (step_thread hs).2.due hdue hok
  · cases l with
    | agent l => exact hfails.elim
    | thread e => exact (step_thread hs).2.missed_of_fails hdue hfails
  · cases l with
    | agent l =>
      obtain ⟨-, a, -, rfl⟩ := step_agent hs
      exact hmissed
    | thread e => exact (step_thread hs).2.missed hmissed

/-! ### The announcement -/

/-- The end of the thread is announced: its promise is set, so that `stop` joins it, and a Close was
handed in, so that the main thread leaves its loop, whatever the other threads do meanwhile. -/
structure Announced (L : Limits) (s : System) : Prop where
  promise : s.thread.promises = 1
  stop : s.agent.pc.isFinal = false → ∃ a, stopTalker s.agent = .ok true a
  close : closeRequest ∈ s.thread.handed
  leaves : ∀ ls s', Run.exec (step L) Run.always ls s = some s' →
    remaining s.agent ≤ mainSteps ls → inLoop s'.agent.pc = false

theorem announced_of_due (hr : Reachable L Run.always s) (hret : s.thread.point = .returned)
    (h : Due s.thread) : Announced L s := by
  rw [Due, hret] at h
  obtain ⟨hpromise, hclose⟩ := h
  have hleaving : Leaving s.agent := by
    obtain ⟨rest, hrest, hqueue⟩ := (queued hr).taken
    rw [← hrest, List.mem_append] at hclose
    rcases hclose with hclose | hclose
    · exact Or.inr (closing_of_taken hr hclose)
    · cases hfinal : s.agent.pc.isFinal with
      | true => exact Or.inr (Or.inr (Or.inr (inLoop_of_final hfinal)))
      | false => exact Or.inl (hqueue hfinal ▸ hclose)
  refine ⟨hpromise, fun hfinal => ?_, hclose, fun ls s' hs hle => ?_⟩
  · rcases sound hr with hcrash | hsound
    · simp [hcrash, Pc.isFinal] at hfinal
    · have hstage := (hsound.stage hfinal).1
      rw [hret] at hstage
      have ht : s.agent.talker = .finished := by
        rcases hstage with ⟨hzero, -⟩ | ⟨-, ht⟩
        · omega
        · exact ht
      exact ⟨_, by rw [stopTalker, ht]⟩
  · rw [← Bool.not_eq_true]
    intro hloop
    obtain ⟨-, hless⟩ := leaving_run hr hleaving hret hs hloop
    have hpos : 0 < remaining s'.agent := by
      unfold remaining
      cases hpc : s'.agent.pc <;> rw [hpc] at hloop <;> simp_all [inLoop, distance]
    omega

/-- **The announcement.** When the thread has returned, its end is announced if and only if cynara
could be initialised, and neither the constructor of `Request` nor the handler has thrown. -/
theorem announced_iff {ls : List Label} (h : Run.exec (step L) Run.always ls new = some s)
    (hret : s.thread.point = .returned) : Announced L s ↔ ∀ l ∈ ls, ¬ Fails l := by
  have hr : Reachable L Run.always s := .of_exec .start h
  rcases due_or_missed h with ⟨hok, hdue⟩ | ⟨⟨l, hl, hfails⟩, hmissed⟩
  · exact iff_of_true (announced_of_due hr hret hdue) hok
  · refine iff_of_false (fun hannounced => ?_) fun hok => hok l hl hfails
    rw [Missed, hret] at hmissed
    rcases hmissed with hzero | hclose
    · have := hannounced.promise
      omega
    · exact hclose hannounced.close

/-- The thread from the error on that ends its loop. -/
def farewell : List Label := List.replicate 3 (.thread .proceed)

/-- Cynara could be initialised, and then nothing could be received. -/
def receiveFailedRun : List Label :=
  [.agent tick, .thread (.agentInitialize true), .thread (.getRequest none), .thread .proceed] ++
    farewell

theorem announced_receiveFailed : ∃ s,
    (Run.exec (step .lp64) Run.always receiveFailedRun new = some s ∧ s.thread.point = .returned) ∧
      Announced .lp64 s := by
  obtain ⟨s, hs, hret⟩ : ∃ s, Run.exec (step .lp64) Run.always receiveFailedRun new = some s ∧
      s.thread.point = .returned :=
    Option.map_eq_some_iff.1 (by decide +kernel)
  refine ⟨s, ⟨hs, hret⟩, (announced_iff hs hret).2 ?_⟩
  simp [receiveFailedRun, farewell, Fails]

/-- Cynara could not be initialised. -/
def initFailedRun : List Label :=
  [.agent tick, .thread (.agentInitialize false), .thread .proceed]

/-- There was no memory for the first request. -/
def thrownRun : List Label :=
  [.agent tick, .thread (.agentInitialize true),
    .thread (.getRequest (some ⟨.ACTION, 1, some question⟩)),
    .thread (.construct (some .stdException))] ++ farewell

/-- The early `return` leaves the promise unset, so `stop` fails; and after an exception there is
no Close. -/
theorem not_announced_initFailed_thrown :
    (∃ s, Run.exec (step .lp64) Run.always initFailedRun new = some s ∧
      s.thread.point = .returned ∧ s.thread.promises = 0 ∧ ¬ Announced .lp64 s) ∧
    ∃ s, Run.exec (step .lp64) Run.always thrownRun new = some s ∧
      s.thread.point = .returned ∧ s.thread.handed = [] ∧ ¬ Announced .lp64 s := by
  constructor
  · obtain ⟨s, hs, hst⟩ : ∃ s, Run.exec (step .lp64) Run.always initFailedRun new = some s ∧
        (s.thread.point, s.thread.promises) = (.returned, 0) :=
      Option.map_eq_some_iff.1 (by decide +kernel)
    simp only [Prod.mk.injEq] at hst
    refine ⟨s, hs, hst.1, hst.2, fun h => ?_⟩
    simpa [hst.2] using h.promise
  · obtain ⟨s, hs, hst⟩ : ∃ s, Run.exec (step .lp64) Run.always thrownRun new = some s ∧
        (s.thread.point, s.thread.handed) = (.returned, []) :=
      Option.map_eq_some_iff.1 (by decide +kernel)
    simp only [Prod.mk.injEq] at hst
    refine ⟨s, hs, hst.1, hst.2, fun h => ?_⟩
    simpa [hst.2] using h.close

end System

end AskUser
