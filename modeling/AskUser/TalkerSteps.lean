import AskUser.CynaraTalker

/-!
# What the thread of `CynaraTalker` can do

`ThreadStep` lists the statements of the thread with what they change (`threadStep_cases`), and is
all that later proofs use of the code. The agent knows how far the thread is (`Stage`), and keeps
its own invariant (`System.sound`).

In a run without exceptions other than `TypeException` (`Quiet`) the statements come to the steps
that the agent alone would take (`System.refines`), so what is proved of the agent alone holds here.
-/

namespace AskUser
open Agent CynaraTalker RequestType Objects

namespace System

variable {L : Limits} {s s' : System} {e : Event} {l : Label}

/-! ### The statements -/

/-- The statements of the thread. -/
inductive ThreadStep (s : System) : Event → System → Prop
  | initialized : s.thread.point = .agentInitialize → s.agent.talker = .initializing →
      ThreadStep s (.agentInitialize true) (s.goto .getRequest .receiving)
  | initFailed : s.thread.point = .agentInitialize → s.agent.talker = .initializing →
      ThreadStep s (.agentInitialize false)
        { s with thread.point := .initFailed, thread.failed := true }
  | closesEarly : s.thread.point = .initFailed →
      ThreadStep s .proceed ((s.hand closeRequest).goto .returned .returned)
  | receives (m : Message) : s.thread.point = .getRequest →
      ThreadStep s (.getRequest (some m))
        { s with thread := { s.thread.obtain m with point := .construct m.type m.id } }
  | receiveFailed : s.thread.point = .getRequest →
      ThreadStep s (.getRequest none)
        { s with thread.point := .receiveFailed, thread.failed := true }
  | closes : s.thread.point = .receiveFailed →
      ThreadStep s .proceed ((s.hand closeRequest).goto .leave .closing)
  | dropped {type id} : s.thread.point = .construct type id → cynaraType2AgentType type = none →
      ThreadStep s (.construct none) { s with thread.point := .release }
  | constructed {type id rt bytes t} : s.thread.point = .construct type id →
      cynaraType2AgentType type = some rt → s.thread.copyData = some (bytes, t) →
      ThreadStep s (.construct none)
        { s with thread := { t with point := .handle ⟨rt, id, bytes⟩ } }
  | constructThrows {type id} (x : Thrown) : s.thread.point = .construct type id →
      ThreadStep s (.construct (some x)) (s.goto .leave .closing)
  | handled {r} : s.thread.point = .handle r →
      ThreadStep s (.handle none) { s.hand r with thread.point := .release }
  | handleThrows {r} (x : Thrown) : s.thread.point = .handle r →
      ThreadStep s (.handle (some x)) (s.goto .leave .closing)
  | released {t} : s.thread.point = .release → s.thread.freeData = some t →
      ThreadStep s .proceed { s with thread := { t with data := none, point := .getRequest } }
  | left {t} : s.thread.point = .leave → s.thread.freeData = some t →
      ThreadStep s .proceed { s with thread := { t with point := .finish } }
  | finished : s.thread.point = .finish → ThreadStep s .proceed { s with thread.point := .setValue }
  | announced : s.thread.point = .setValue →
      ThreadStep s .proceed
        { s.goto .returned .finished with thread.promises := s.thread.promises + 1 }
  | copyCrashes {type id} : s.thread.point = .construct type id → s.thread.copyData = none →
      ThreadStep s (.construct none) { s with thread.point := .crashed }
  | freeCrashes : s.thread.point = .release ∨ s.thread.point = .leave → s.thread.freeData = none →
      ThreadStep s .proceed { s with thread.point := .crashed }

theorem threadStep_cases (hs : threadStep e s = some s') : ThreadStep s e s' := by
  unfold threadStep at hs
  split at hs
  · next success hpoint =>
    split_ifs at hs with ht hsuccess
    · obtain rfl := Option.some.inj hs
      obtain rfl := hsuccess
      exact .initialized hpoint ht
    · obtain rfl := Option.some.inj hs
      obtain rfl : success = false := by simpa using hsuccess
      exact .initFailed hpoint ht
  · next hpoint => exact Option.some.inj hs ▸ .closesEarly hpoint
  · next hpoint => exact Option.some.inj hs ▸ .receiveFailed hpoint
  · next hpoint => exact Option.some.inj hs ▸ .closes hpoint
  · next m hpoint => exact Option.some.inj hs ▸ .receives m hpoint
  · next thrown type id hpoint =>
    split at hs
    · next htype => exact Option.some.inj hs ▸ .dropped hpoint htype
    · simp at hs
    · next rt htype =>
      split at hs
      · next hcopy => exact Option.some.inj hs ▸ .copyCrashes hpoint hcopy
      · next bytes t hcopy => exact Option.some.inj hs ▸ .constructed hpoint htype hcopy
    · next x htype => exact Option.some.inj hs ▸ .constructThrows x hpoint
  · next r hpoint => exact Option.some.inj hs ▸ .handled hpoint
  · next x r hpoint => exact Option.some.inj hs ▸ .handleThrows x hpoint
  · next hpoint =>
    split at hs
    · next hfree => exact Option.some.inj hs ▸ .freeCrashes (Or.inl hpoint) hfree
    · next t hfree => exact Option.some.inj hs ▸ .released hpoint hfree
  · next hpoint =>
    split at hs
    · next hfree => exact Option.some.inj hs ▸ .freeCrashes (Or.inr hpoint) hfree
    · next t hfree => exact Option.some.inj hs ▸ .left hpoint hfree
  · next hpoint => exact Option.some.inj hs ▸ .finished hpoint
  · next hpoint => exact Option.some.inj hs ▸ .announced hpoint
  · simp at hs

/-! ### The agent's side -/

/-- What a statement does to the agent: it hands in a request or not, and the agent may learn how
far the thread is. -/
theorem ThreadStep.agent (hs : ThreadStep s e s') :
    s'.agent = { s.agent with store := s'.agent.store, talker := s'.agent.talker } ∧
      (s'.agent.store = s.agent.store ∨ ∃ r, s'.agent.store = s.agent.store.hand r) := by
  cases hs with
  | closesEarly | closes | handled => exact ⟨rfl, Or.inr ⟨_, rfl⟩⟩
  | _ => exact ⟨rfl, Or.inl rfl⟩

theorem ThreadStep.taken (hs : ThreadStep s e s') : s'.taken = s.taken := by
  cases hs <;> rfl

/-- What the agent knows of the thread, by the statement that is next and the number of times that
the promise was set. -/
def Stage (promises : ℕ) (talker : TalkerState) : Point → Prop
  | .agentInitialize => promises = 0 ∧ (talker = .notStarted ∨ talker = .initializing)
  | .initFailed => promises = 0 ∧ talker = .initializing
  | .getRequest | .construct _ _ | .release | .receiveFailed =>
    promises = 0 ∧ talker = .receiving
  | .handle r =>
    promises = 0 ∧ talker = .receiving ∧ ∃ type, cynaraType2AgentType type = some r.type
  | .leave | .finish | .setValue => promises = 0 ∧ talker = .closing
  | .returned => promises = 0 ∧ talker = .returned ∨ promises = 1 ∧ talker = .finished
  | .crashed => talker ≠ .joined ∧ talker ≠ .notStarted

theorem Stage.not_joined {promises : ℕ} {talker : TalkerState} {point : Point}
    (h : Stage promises talker point) : talker ≠ .joined := by
  cases point <;> simp only [Stage] at h <;> grind

theorem Stage.started {promises : ℕ} {talker : TalkerState} {point : Point}
    (h : Stage promises talker point) (hpoint : point ≠ .agentInitialize) :
    talker ≠ .notStarted := by
  cases point <;> simp only [Stage] at h <;> grind

/-- A statement moves on to the next stage. -/
theorem ThreadStep.stage (hs : ThreadStep s e s')
    (h : Stage s.thread.promises s.agent.talker s.thread.point) :
    Stage s'.thread.promises s'.agent.talker s'.thread.point := by
  cases hs with
  | initialized hpoint ht =>
    rw [hpoint] at h
    exact ⟨h.1, rfl⟩
  | initFailed hpoint ht =>
    rw [hpoint] at h
    exact ⟨h.1, ht⟩
  | closesEarly hpoint =>
    rw [hpoint] at h
    exact Or.inl ⟨h.1, rfl⟩
  | receives m hpoint =>
    rw [hpoint] at h
    rw [Thread.obtain_frame]
    exact h
  | receiveFailed hpoint | dropped hpoint | finished hpoint =>
    rw [hpoint] at h
    exact h
  | closes hpoint | constructThrows _ hpoint | handleThrows _ hpoint =>
    rw [hpoint] at h
    exact ⟨h.1, rfl⟩
  | @constructed type id rt bytes t hpoint htype hcopy =>
    rw [hpoint] at h
    rw [Thread.copyData_frame hcopy]
    exact ⟨h.1, h.2, type, htype⟩
  | handled hpoint =>
    rw [hpoint] at h
    exact ⟨h.1, h.2.1⟩
  | released hpoint hfree | left hpoint hfree =>
    rw [hpoint] at h
    rw [Thread.freeData_frame hfree]
    exact h
  | announced hpoint =>
    rw [hpoint] at h
    refine Or.inr ⟨?_, rfl⟩
    show s.thread.promises + 1 = 1
    rw [h.1]
  | copyCrashes hpoint =>
    rw [hpoint] at h
    simp [Stage, h.2]
  | freeCrashes hpoint =>
    rcases hpoint with hpoint | hpoint
    · rw [hpoint] at h
      simp [Stage, h.2]
    · rw [hpoint] at h
      simp [Stage, h.2]

/-- The thread does not go back to its first statement, which waits for the thread to be started. -/
theorem ThreadStep.started (hs : ThreadStep s e s') : s'.thread.point ≠ .agentInitialize ∧
    (s.thread.point ≠ .agentInitialize ∨ s.agent.talker = .initializing) := by
  cases hs with
  | initialized hpoint ht | initFailed hpoint ht => exact ⟨by simp [goto], Or.inr ht⟩
  | freeCrashes hpoint =>
    refine ⟨by simp, Or.inl ?_⟩
    rcases hpoint with hpoint | hpoint <;> simp [hpoint]
  | closesEarly hpoint | receives _ hpoint | receiveFailed hpoint | closes hpoint
  | dropped hpoint | constructed hpoint | constructThrows _ hpoint | handled hpoint
  | handleThrows _ hpoint | released hpoint | left hpoint | finished hpoint | announced hpoint
  | copyCrashes hpoint => exact ⟨by simp [goto], Or.inl (by simp [hpoint])⟩

/-! ### The steps of the agent -/

/-- A step of a dialog's thread, and a SIGTERM, leave the rest of the agent as it is. -/
structure Elsewhere (a a' : Agent) : Prop where
  store : a'.store = a.store
  pc : a'.pc = a.pc
  talker : a'.talker = a.talker
  stopFlag : a.stopFlag → a'.stopFlag

/-- A step of the agent that is not its talker's. -/
theorem agentStep_cases {a a' : Agent} {l : Agent.Label} (h : Inv a) (hl : ∀ e, l ≠ .talker e)
    (hs : Agent.step L l a = some a') : a.pc.isFinal = false ∧
      ((∃ c, l = .main c ∧ a' = mainStep L c a ∧ MainStep L c a a') ∨
        (∀ c, l ≠ .main c) ∧ Elsewhere a a') := by
  cases hfinal : a.pc.isFinal with
  | true => simp [Agent.step, hfinal] at hs
  | false =>
    refine ⟨rfl, ?_⟩
    simp only [Agent.step, hfinal, Bool.false_eq_true, if_false] at hs
    cases l with
    | main c =>
      obtain rfl := Option.some.inj hs
      exact Or.inl ⟨c, rfl, rfl, mainStep_cases h hfinal⟩
    | talker e => exact absurd rfl (hl e)
    | post u ret buttonClicked =>
      obtain ⟨ui, -, -, rfl⟩ := postStep_spec hs
      exact Or.inr ⟨by simp, rfl, rfl, rfl, id⟩
    | postThrows u =>
      obtain ⟨ui, -, -, rfl⟩ := throwStep_spec hs
      exact Or.inr ⟨by simp, rfl, rfl, rfl, id⟩
    | finish u =>
      obtain ⟨ui, -, -, rfl⟩ := finishStep_spec hs
      exact Or.inr ⟨by simp, rfl, rfl, rfl, id⟩
    | sigterm =>
      obtain rfl := Option.some.inj hs
      exact Or.inr ⟨by simp, rfl, rfl, rfl, fun _ => rfl⟩

/-- A step of the main thread starts the talker's thread, or leaves it alone, until `finish`. -/
theorem mainStep_talker {c : Choice} {a a' : Agent} (hs : MainStep L c a a')
    (hfinal : a'.pc.isFinal = false) :
    (a.pc = .start ∧ a'.pc ≠ .start ∧ a'.talker = .initializing) ∨
      (a.pc ≠ .start ∧ a'.pc ≠ .start ∧ a'.talker = a.talker) := by
  cases hs with
  | start hpc => exact Or.inl ⟨hpc, by simp, rfl⟩
  | clashed | exited | finished => simp [Pc.isFinal] at hfinal
  | @moves pc hm =>
    have hpcs : a.pc ≠ .start ∧ pc ≠ .start := by
      generalize a.pc = pc₀ at hm
      cases hm <;> simp
    exact Or.inr ⟨hpcs.1, hpcs.2, rfl⟩
  | popped hpc | closed hpc | cancelled hpc | duplicate hpc | unknownCancel hpc | thrown hpc
  | startFailed hpc | recorded hpc | poppedResponse hpc | answered hpc | unmatched hpc
  | cleaned hpc => exact Or.inr ⟨by simp [hpc], by simp, rfl⟩

/-! ### The invariant -/

/-- The invariant of the agent, together with how far the thread is. -/
structure Sound (s : System) : Prop where
  inv : Inv s.agent
  stage : s.agent.pc.isFinal = false →
    Stage s.thread.promises s.agent.talker s.thread.point ∧
      (s.agent.pc = .start ↔ s.agent.talker = .notStarted)

theorem sound_new : Sound new where
  inv := inv_new
  stage _ := ⟨⟨rfl, Or.inl rfl⟩, by simp [new, Agent.new]⟩

theorem step_final (h : s.agent.pc.isFinal = true) : step L l s = none := by
  cases l with
  | thread e => simp [step, h]
  | agent l => cases l <;> simp [step, Agent.step, h]

theorem step_agent {l : Agent.Label} (hs : step L (.agent l) s = some s') :
    (∀ e, l ≠ .talker e) ∧ ∃ a, Agent.step L l s.agent = some a ∧
      s' = { s with agent := a, taken := s.taken ++ (taking l s.agent).toList } := by
  cases l with
  | talker e => simp [step] at hs
  | main c | post u ret buttonClicked | postThrows u | finish u | sigterm =>
    obtain ⟨a, ha, rfl⟩ := Option.map_eq_some_iff.1 hs
    exact ⟨by simp, a, ha, rfl⟩

theorem step_thread (hs : step L (.thread e) s = some s') :
    s.agent.pc.isFinal = false ∧ ThreadStep s e s' := by
  rw [step] at hs
  split_ifs at hs with hfinal
  exact ⟨by simpa using hfinal, threadStep_cases hs⟩

theorem Sound.agentStep (h : Sound s) {l : Agent.Label} (hl : ∀ e, l ≠ .talker e) {a : Agent}
    (hs : Agent.step L l s.agent = some a) {taken : List Request} :
    a.pc = .crashed .terminate ∨ Sound { s with agent := a, taken := taken } := by
  refine (step_inv h.inv hs).imp_right fun hinv => ⟨hinv, fun hfinal' => ?_⟩
  obtain ⟨hfinal, hcases⟩ := agentStep_cases h.inv hl hs
  obtain ⟨hstage, hstart⟩ := h.stage hfinal
  rcases hcases with ⟨c, -, -, hmain⟩ | ⟨-, helse⟩
  · rcases mainStep_talker hmain hfinal' with ⟨hpc, hpc', ht⟩ | ⟨hpc, hpc', ht⟩
    · refine ⟨?_, by simp [hpc', ht]⟩
      -- the thread has not been started before, so it is at its first statement
      have hnot := hstart.1 hpc
      show Stage s.thread.promises a.talker s.thread.point
      rw [ht]
      rw [hnot] at hstage
      cases hpoint : s.thread.point <;> rw [hpoint] at hstage <;> simp_all [Stage]
    · exact ⟨ht ▸ hstage, by simpa [hpc', ht, hpc] using hstart⟩
  · exact ⟨helse.talker ▸ hstage, by rw [helse.pc, helse.talker]; exact hstart⟩

theorem Sound.threadStep (h : Sound s) (hfinal : s.agent.pc.isFinal = false)
    (hs : ThreadStep s e s') : Sound s' := by
  obtain ⟨hstage, hstart⟩ := h.stage hfinal
  have hstage' := hs.stage hstage
  obtain ⟨hagent, hstore⟩ := hs.agent
  have hpc : s'.agent.pc = s.agent.pc := by rw [hagent]
  have hother : OtherStep s.agent s'.agent := by
    rw [hagent]
    rcases hstore with hstore | ⟨r, hstore⟩
    · rw [hstore]
      exact .talker _ hstage'.not_joined hstage.not_joined
    · rw [hstore]
      exact .handed r _ hstage'.not_joined hstage.not_joined
  have hstarted : s.agent.talker ≠ .notStarted := by
    rcases hs.started.2 with hpoint | ht
    · exact hstage.started hpoint
    · simp [ht]
  refine ⟨hother.inv h.inv hfinal, fun _ => ⟨hstage', ?_⟩⟩
  rw [hpc, hstart]
  exact iff_of_false hstarted (hstage'.started hs.started.1)

/-- **The invariant** holds in every state of every run, but for the last one of a run that
`std::terminate` ended. -/
theorem sound {cond : Label → System → Prop} (h : Reachable L cond s) :
    s.agent.pc = .crashed .terminate ∨ Sound s := by
  refine h.invariant (P := fun s => s.agent.pc = .crashed .terminate ∨ Sound s)
    (Or.inr sound_new) fun l s s' ih _ hs => ?_
  rcases ih with hcrash | hsound
  · rw [step_final (by rw [hcrash]; rfl)] at hs
    exact absurd hs (by simp)
  · cases l with
    | agent l =>
      obtain ⟨hl, a, ha, rfl⟩ := step_agent hs
      exact hsound.agentStep hl ha
    | thread e =>
      obtain ⟨hfinal, hthread⟩ := step_thread hs
      exact Or.inr (hsound.threadStep hfinal hthread)

/-- So it holds wherever a run goes on. -/
theorem sound_of_step {cond : Label → System → Prop} (h : Reachable L cond s)
    (hs : step L l s = some s') : Sound s := by
  rcases sound h with hcrash | hsound
  · rw [step_final (by rw [hcrash]; rfl)] at hs
    exact absurd hs (by simp)
  · exact hsound

/-! ### Refinement -/

/-- Neither the constructor of `Request` nor the handler throws. -/
def Quiet : Label → System → Prop
  | .thread (.construct (some _)), _ | .thread (.handle (some _)), _ => False
  | _, _ => True

instance : (l : Label) → (s : System) → Decidable (Quiet l s)
  | .thread (.construct (some _)), _ | .thread (.handle (some _)), _ => .isFalse id
  | .thread (.construct none), _ | .thread (.handle none), _ => .isTrue trivial
  | .thread (.agentInitialize _), _ | .thread (.getRequest _), _ => .isTrue trivial
  | .thread .proceed, _ | .agent _, _ => .isTrue trivial

theorem ThreadStep.refines (hs : ThreadStep s e s') (hquiet : Quiet (.thread e) s)
    (h : Stage s.thread.promises s.agent.talker s.thread.point) :
    s'.agent = s.agent ∨ ∃ e, talkerStep e s.agent = some s'.agent := by
  cases hs with
  | initialized _ ht =>
    refine Or.inr ⟨.initialized true, ?_⟩
    simp only [talkerStep, ht]
    rfl
  | closesEarly hpoint =>
    rw [hpoint] at h
    refine Or.inr ⟨.initialized false, ?_⟩
    simp only [talkerStep, h.2]
    rfl
  | closes hpoint =>
    rw [hpoint] at h
    refine Or.inr ⟨.receiveFailed, ?_⟩
    simp only [talkerStep, h.2]
    rfl
  | @handled r hpoint =>
    rw [hpoint] at h
    obtain ⟨-, ht, type, htype⟩ := h
    refine Or.inr ⟨.received type r.id r.data, ?_⟩
    simp only [talkerStep, ht, htype]
    rfl
  | announced hpoint =>
    rw [hpoint] at h
    refine Or.inr ⟨.closed, ?_⟩
    simp only [talkerStep, h.2]
    rfl
  | constructThrows | handleThrows => exact absurd hquiet (by simp [Quiet])
  | _ => exact Or.inl rfl

/-- **Refinement.** Without exceptions other than `TypeException`, the agent goes through the same
states as it would alone. -/
theorem refines (h : Reachable L Quiet s) : Agent.Reachable L Run.always s.agent := by
  refine h.simulate System.agent rfl fun l s s' hr hquiet hs => ?_
  have hsound := sound_of_step hr hs
  cases l with
  | agent l =>
    obtain ⟨-, a, ha, rfl⟩ := step_agent hs
    exact Or.inr ⟨l, ha⟩
  | thread e =>
    obtain ⟨hfinal, hthread⟩ := step_thread hs
    rcases hthread.refines hquiet (hsound.stage hfinal).1 with heq | ⟨e', he'⟩
    · exact Or.inl heq
    · exact Or.inr ⟨.talker e', by rwa [Agent.step, hfinal]⟩

end System

end AskUser
