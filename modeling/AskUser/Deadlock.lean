import AskUser.Races

/-!
# Nobody keeps a mutex

A thread that owns `m_mutex` needs nothing from the others to go on: it is never in a call that
waits (`race_free`), and it gives the mutex back after so many of its own steps (`holding`). The
same holds of the mutex of `CynaraTalker` (`mholding`), which nobody locks who owns the other one.
So the process is never stuck before its end (`deadlock_free`). Nothing is said of who gets a mutex
next, for which `std::mutex` makes no promise.
-/

namespace AskUser.Process
open Agent CynaraTalker Locks

variable {L : Limits} {c : Choice} {s s' : Process} {t : ThreadId} {l : Label}

/-! ### `m_mutex` -/

/-- How many statements it is at most from here to the one that gives the mutex back, and including
it. -/
def Statement.holding : Statement → ℕ
  | .ifStopped => 7
  | .whileRequests => 6
  | .orResponses => 5
  | .ifRequest => 4
  | .ifResponse => 3
  | .popRequest | .popResponse => 2
  | _ => 1

def Handler.holding : Handler → ℕ
  | .locked => 3
  | .pushed => 2
  | .outside | .notified => 1

/-- How many steps the thread needs at most to give the mutex back. -/
def holding (s : Process) : ThreadId → ℕ
  | .main => s.statement.holding
  | t => (s.handler t).holding

theorem holding_bounds (s : Process) (t : ThreadId) : 0 < s.holding t ∧ s.holding t ≤ 7 := by
  have hhandler : ∀ h : Handler, 0 < h.holding ∧ h.holding ≤ 7 := by
    intro h
    cases h <;> simp [Handler.holding]
  cases t with
  | main =>
    show 0 < s.statement.holding ∧ s.statement.holding ≤ 7
    cases s.statement <;> simp [Statement.holding]
  | talker => exact hhandler _
  | dialog u => exact hhandler _

theorem holding_handler (ht : t ≠ .main) : s.holding t = (s.handler t).holding := by
  cases t with
  | main => exact absurd rfl ht
  | talker | dialog u => rfl

/-- A test brings the main thread closer to the statement that gives the mutex back. -/
theorem code_test_holding {st : Statement} {test : Agent → Statement} (hcode : code st = .test test)
    {a : Agent} (h : st.Expects true a) : (test a).holding < st.holding := by
  cases st <;> simp only [code, Instruction.test.injEq, reduceCtorEq] at hcode <;> subst hcode <;>
    simp only [Statement.Expects, reduceCtorEq] at h <;> simp only <;> split_ifs <;>
    simp [Statement.holding]

theorem code_pop_holding {st next : Statement} {pop : System → Option (System × Statement)}
    {sys sys' : System} (hcode : code st = .pop pop) (hpop : pop sys = some (sys', next)) :
    next.holding < st.holding := by
  cases code_popped hcode hpop with
  | request hst | response hst => simp [hst, Statement.holding]

theorem MainMove.handler (hm : MainMove L c s s') : s'.handler = s.handler := by
  cases hm <;> rfl

/-- A step of the main thread while it owns the mutex. -/
theorem MainMove.holds (hm : MainMove L c s s') (h : Locked s)
    (howner : s.mutex.owner = some .main) : s'.mutex.owner = none ∨
      s'.mutex.owner = some .main ∧ s'.holding .main < s.holding .main := by
  have howns : s.owns = true := (h.guards .main).1 howner
  have hexpects := h.expects
  rw [howns] at hexpects
  cases hm with
  | locks next hcode hnot | leaves next hcode hnot | sends next hcode hnot
  | calls next m hcode hnot =>
    simp [howns] at hnot
  | unlocks next hcode => exact Or.inl rfl
  | tests test hcode => exact Or.inr ⟨howner, code_test_holding hcode hexpects⟩
  | pops pop sys st hcode hpop => exact Or.inr ⟨howner, code_pop_holding hcode hpop⟩

/-- A step of the main thread while another thread owns the mutex. -/
theorem MainMove.elsewhere (hm : MainMove L c s s') (ht : t ≠ .main)
    (howner : s.mutex.owner = some t) :
    s'.mutex.owner = some t ∧ s'.holding t = s.holding t := by
  have hhandler : s'.handler = s.handler := hm.handler
  cases hm with
  | locks next hcode hnot hfree => simp [hfree] at howner
  | unlocks next hcode howns hmain =>
    rw [hmain] at howner
    exact absurd (Option.some.inj howner).symm ht
  | leaves | tests | pops | sends | calls =>
    refine ⟨howner, ?_⟩
    rw [holding_handler ht, holding_handler ht, hhandler]

/-- A step of any other thread while the mutex is owned. -/
theorem OtherMove.holds (hm : OtherMove s l s') (h : Locked s) (howner : s.mutex.owner = some t) :
    s'.mutex.owner = none ∨ s'.mutex.owner = some t ∧
      s'.holding t + (decide (l.actor = some t)).toNat ≤ s.holding t := by
  -- the thread that is in its handler is the owner
  have hsame : ∀ {t'}, s.handler t' ≠ .outside → t' = t := fun hin =>
    h.guards.exclusive ((inside_iff h.main).2 (Or.inr hin)) ((h.guards t).1 howner)
  have hnot : ∀ {t'}, s.handler t' ≠ .outside → t' ≠ .main := by
    rintro t' hin rfl
    exact hin h.main
  -- the owner is in its handler, or the main thread
  have hout : ∀ {t'}, s.handler t' = .outside → t' ≠ .main → t' ≠ t := by
    rintro t' hout ht' rfl
    rcases (inside_iff h.main).1 ((h.guards t').1 howner) with ⟨he, -⟩ | hin
    · exact ht' he
    · exact hin hout
  have advance : ∀ {t' hd hd'} {s' : Process}, s.handler t' = hd → hd ≠ .outside →
      s'.handler = (s.setHandler t' hd').handler → l.actor = some t' → hd'.holding < hd.holding →
      s'.holding t + (decide (l.actor = some t)).toNat ≤ s.holding t := by
    intro t' hd hd' s' hhd hin hs' hactor hlt
    subst hhd
    obtain rfl := hsame hin
    rw [holding_handler (hnot hin), holding_handler (hnot hin), hs', hactor]
    simpa [setHandler] using hlt
  have stays : ∀ {s' : Process}, s'.handler = s.handler → s'.statement = s.statement →
      l.actor ≠ some t → s'.holding t + (decide (l.actor = some t)).toNat ≤ s.holding t := by
    intro s' hhandler hstatement hactor
    have : s'.holding t = s.holding t := by
      cases t with
      | main => simp [holding, hstatement]
      | talker | dialog u => simp [holding, hhandler]
    simp [this, hactor]
  cases hm with
  | locked t' _ _ hfree => simp [hfree] at howner
  | handed e sys _ _ _ hlocked =>
    exact Or.inr ⟨howner, advance hlocked (by simp) rfl rfl (by simp [Handler.holding])⟩
  | posted u ret button a _ hlocked =>
    exact Or.inr ⟨howner, advance hlocked (by simp) rfl rfl (by simp [Handler.holding])⟩
  | notified t' hpushed =>
    exact Or.inr ⟨howner, advance hpushed (by simp) rfl rfl (by simp [Handler.holding])⟩
  | woken t' n hpushed =>
    exact Or.inr ⟨howner, advance hpushed (by simp) rfl rfl (by simp [Handler.holding])⟩
  | unlocked | unwound | threwLocked => exact Or.inl rfl
  | thread e sys _ _ ht | thrown x sys _ ht | mlocks _ ht =>
    refine Or.inr ⟨howner, stays rfl rfl ?_⟩
    simpa [Label.actor] using hout ht (by simp)
  | munlocks _ hclosing =>
    refine Or.inr ⟨howner, stays rfl rfl ?_⟩
    simpa [Label.actor] using hout (h.closing hclosing).2 (by simp)
  | threw u a _ ht | finished u a _ ht =>
    refine Or.inr ⟨howner, stays rfl rfl ?_⟩
    simpa [Label.actor] using hout ht (by simp)
  | sigterm => exact Or.inr ⟨howner, stays rfl rfl (by simp [Label.actor])⟩

/-- Each of its own steps brings the owner of the mutex closer to giving it back, and no step of
another thread takes it away. -/
theorem step_holds (h : Reachable L Run.always s) (hs : step L l s = some s')
    (howner : s.mutex.owner = some t) : s'.mutex.owner = none ∨ s'.mutex.owner = some t ∧
      s'.holding t + (decide (l.actor = some t)).toNat ≤ s.holding t := by
  have hlocked := (locked h).2
  obtain ⟨-, ⟨c, rfl, hmove⟩ | ⟨-, hmove⟩⟩ := step_moves hlocked hs
  · by_cases ht : t = .main
    · subst ht
      rcases hmove.holds hlocked howner with hfree | ⟨howner', hlt⟩
      · exact Or.inl hfree
      · refine Or.inr ⟨howner', ?_⟩
        simp only [Label.actor, decide_true, Bool.toNat_true]
        omega
    · obtain ⟨howner', hsame⟩ := hmove.elsewhere ht howner
      refine Or.inr ⟨howner', ?_⟩
      simp [Label.actor, hsame, Ne.symm ht]
  · exact hmove.holds hlocked howner

/-- The push that a thread in its handler has come for is possible. -/
theorem push_enabled (h : Locked s) (hfinal : s.system.agent.pc.isFinal = false)
    (hlocked : s.handler t = .locked) : ∃ l s', l.actor = some t ∧ step L l s = some s' := by
  have hfits := h.fits hfinal t
  cases t with
  | main => simp [h.main] at hlocked
  | talker =>
    have hhands := hfits.1 hlocked
    have hthread : ∀ e sys, System.threadStep e s.system = some sys → (∀ x, e ≠ .handle (some x)) →
        step L (.thread e) s = some (s.pushed .talker sys) := by
      intro e sys hsys hquiet
      have hmatch : s.threadStep e = s.push .talker sys := by
        have hpoint : ¬ (s.system.thread.point = .finish ∧ s.closing = false) := by
          rintro ⟨hpoint, -⟩
          simp [hpoint, hands] at hhands
        rw [Process.threadStep, if_neg hpoint, hsys, Option.bind_some, if_pos hhands]
        split
        · exact absurd rfl (hquiet _)
        · exact absurd rfl (hquiet _)
        · exact absurd rfl (hquiet _)
        · rfl
      simp only [step, hfinal, Bool.false_eq_true, if_false, hmatch, push, if_pos hlocked, pushed]
    have henabled : ∃ e sys, System.threadStep e s.system = some sys ∧
        ∀ x, e ≠ .handle (some x) := by
      cases hpoint : s.system.thread.point <;> rw [hpoint] at hhands <;>
        simp only [hands, Bool.false_eq_true] at hhands
      · exact ⟨.proceed, _, by simp only [System.threadStep, hpoint]; rfl, by simp⟩
      · exact ⟨.handle none, _, by simp only [System.threadStep, hpoint]; rfl, by simp⟩
      · exact ⟨.proceed, _, by simp only [System.threadStep, hpoint]; rfl, by simp⟩
    obtain ⟨e, sys, hsys, hquiet⟩ := henabled
    exact ⟨.thread e, _, rfl, hthread e sys hsys hquiet⟩
  | dialog u =>
    obtain ⟨ui, hu, ht⟩ := hfits (by simp [hlocked])
    replace ht : ui.thread = .running := by
      rw [ht, hlocked]
      rfl
    refine ⟨.post u 0 0, ?_⟩
    have hpost : ∃ a, postStep u 0 0 s.system.agent = some a := by
      unfold postStep
      rw [hu]
      simp only
      rw [if_pos ht]
      exact ⟨_, rfl⟩
    obtain ⟨a, ha⟩ := hpost
    refine ⟨s.pushed (.dialog u) { s.system with agent := a, taken := s.system.taken ++ [] },
      rfl, ?_⟩
    simp [step, hfinal, System.step, Agent.step, ha, push, hlocked, System.taking, pushed]

/-- The main thread can go on unless it waits for a mutex. -/
theorem main_enabled (h : Locked s) (hfinal : s.system.agent.pc.isFinal = false)
    (hc : ∀ c' ∈ s.sending, c = c') : (∃ s', step L (.main c) s = some s') ∨ s.Waits L c := by
  rcases h.mainStep (L := L) hc with ⟨s', hs', -⟩ | ⟨hwaits, -⟩ | hended
  · exact Or.inl ⟨s', by simpa [step, hfinal] using hs'⟩
  · exact Or.inr hwaits
  · simp [h.ended hended] at hfinal

/-- The owner of `m_mutex` can go on. -/
theorem owner_enabled (h : Locked s) (hfinal : s.system.agent.pc.isFinal = false)
    (howner : s.mutex.owner = some t) : ∃ l s', l.actor = some t ∧ step L l s = some s' := by
  rcases (inside_iff h.main).1 ((h.guards t).1 howner) with ⟨rfl, howns⟩ | hin
  · -- it is in no call, so it waits for nothing
    have hcall : ∀ next, code s.statement ≠ .call next := fun next hcode => by
      simp [(code_call hcode h.expects).1] at howns
    have hsending : s.sending = none := by
      by_contra hne
      obtain ⟨next, hcode⟩ := code_sends (h.sending (Option.isSome_iff_ne_none.2 hne))
      exact hcall next hcode
    rcases main_enabled (L := L) (c := ⟨0, 0, true⟩) h hfinal (by simp [hsending]) with
      ⟨s', hs'⟩ | ⟨t, ht, ⟨-, howner'⟩ | ⟨⟨next, hcode⟩, -⟩⟩
    · exact ⟨_, s', rfl, hs'⟩
    · exact absurd (Option.some.inj (howner'.symm.trans howner)) ht
    · exact absurd hcode (hcall next)
  · cases hh : s.handler t with
    | outside => exact absurd hh hin
    | locked => exact push_enabled h hfinal hh
    | pushed =>
      have hnotify : ∃ s', s.notifyStep t = some s' := by
        rw [notifyStep, if_pos hh]
        split <;> exact ⟨_, rfl⟩
      obtain ⟨s', hs'⟩ := hnotify
      exact ⟨.notify t, s', rfl, by simpa [step, hfinal] using hs'⟩
    | notified =>
      refine ⟨.unlock t, s.release t, rfl, ?_⟩
      simp [step, hfinal, unlockStep, hh]

/-! ### The mutex of `CynaraTalker` -/

/-- How many steps it is at most from here to the destructor of `mlock`, and including it. -/
def mholding (s : Process) : ThreadId → ℕ
  | .talker => match s.system.thread.point with
    | .finish => 3
    | .setValue => 2
    | _ => 1
  | _ => 1

theorem mholding_bounds (s : Process) (t : ThreadId) : 0 < s.mholding t ∧ s.mholding t ≤ 3 := by
  cases t with
  | main | dialog u => exact ⟨Nat.one_pos, by simp [mholding]⟩
  | talker =>
    unfold mholding
    cases s.system.thread.point <;> simp

/-- The owner is the main thread in a call, or the thread of `CynaraTalker` at its end. -/
theorem Locked.mowner (h : Locked s) (howner : s.talkerMutex.owner = some t) :
    t = .main ∧ s.sending.isSome ∨ t = .talker ∧ s.closing := by
  have hin := (h.mguards t).1 howner
  cases t with
  | main => exact Or.inl ⟨rfl, hin⟩
  | talker => exact Or.inr ⟨rfl, hin⟩
  | dialog u => exact hin.elim

/-- A step of the main thread while it owns the mutex: the call comes to its end. -/
theorem MainMove.mholds (hm : MainMove L c s s') (h : Locked s) (hsending : s.sending.isSome) :
    s'.talkerMutex.owner = none := by
  obtain ⟨next, hcode⟩ := code_sends (h.sending hsending)
  cases hm with
  | locks _ hcode' | leaves _ hcode' | tests _ hcode' | pops _ _ _ hcode' =>
    simp [hcode] at hcode'
  | unlocks _ hcode' => simp [hcode] at hcode'
  | sends _ _ _ hnone => simp [hnone] at hsending
  | calls next m _ _ hends =>
    cases hends with
    | quiet hnone => simp [hnone] at hsending
    | sent => rfl

/-- A step of the main thread while the thread of `CynaraTalker` owns the mutex. -/
theorem MainMove.melsewhere (hm : MainMove L c s s') (h : Locked s)
    (howner : s.talkerMutex.owner = some .talker) :
    s'.talkerMutex.owner = some .talker ∧ s'.mholding .talker = s.mholding .talker := by
  refine ⟨?_, by simp only [mholding, hm.same_thread h]⟩
  cases hm with
  | locks | unlocks | leaves | tests | pops => exact howner
  | sends _ _ _ _ _ hfree => simp [hfree] at howner
  | calls next m _ _ hends =>
    cases hends with
    | quiet => exact howner
    | sent _ hmain => simp [hmain] at howner

/-- A step of any other thread while the mutex is owned. -/
theorem OtherMove.mholds (hm : OtherMove s l s') (h : Locked s)
    (howner : s.talkerMutex.owner = some t) : s'.talkerMutex.owner = none ∨
      s'.talkerMutex.owner = some t ∧
        s'.mholding t + (decide (l.actor = some t)).toNat ≤ s.mholding t := by
  -- a step that is not the owner's
  have stays : ∀ {s' : Process}, s'.system.thread.point = s.system.thread.point →
      l.actor ≠ some t → s'.mholding t + (decide (l.actor = some t)).toNat ≤ s.mholding t := by
    intro s' hpoint hactor
    have : s'.mholding t = s.mholding t := by
      cases t with
      | main | dialog u => rfl
      | talker => simp only [mholding, hpoint]
    simp [this, hactor]
  -- in the scope of `mlock` no handler is called
  have hnot : ∀ {t'}, s.handler t' ≠ .outside ∨ s.calling t' → t' ≠ t := by
    rintro t' hin rfl
    rcases h.mowner howner with ⟨rfl, -⟩ | ⟨rfl, hclosing⟩
    · simp [h.main, calling] at hin
    · obtain ⟨hcloses, hout⟩ := h.closing hclosing
      simp [hout, calling, hands_of_closes hcloses] at hin
  have hdialog : ∀ {u}, (.dialog u : ThreadId) ≠ t := by
    rintro u rfl
    simpa using h.mowner howner
  have htalker : Process.hands s.system.thread.point → .talker ≠ t := fun hhands =>
    hnot (Or.inr hhands)
  cases hm with
  | locked t' hcalling =>
    exact Or.inr ⟨howner, stays rfl (by simpa [Label.actor] using hnot (Or.inr hcalling))⟩
  | notified t' hpushed | woken t' n hpushed =>
    exact Or.inr ⟨howner, stays rfl (by
      simpa [Label.actor] using hnot (Or.inl (by simp [hpushed])))⟩
  | unlocked t' hnotified =>
    exact Or.inr ⟨howner, stays rfl (by
      simpa [Label.actor] using hnot (Or.inl (by simp [hnotified])))⟩
  | posted | threw | threwLocked | finished =>
    exact Or.inr ⟨howner, stays rfl (by simpa [Label.actor] using hdialog)⟩
  | sigterm => exact Or.inr ⟨howner, stays rfl (by simp [Label.actor])⟩
  | mlocks _ _ hfree => simp [hfree] at howner
  | munlocks => exact Or.inl rfl
  | handed e sys hstep hhands =>
    rcases h.mowner howner with ⟨rfl, -⟩ | ⟨rfl, -⟩
    · exact Or.inr ⟨howner, by simp [mholding, Label.actor]⟩
    · exact absurd rfl (htalker hhands)
  | thrown x sys hstep | unwound x sys hstep =>
    rcases h.mowner howner with ⟨rfl, -⟩ | ⟨rfl, -⟩
    · exact Or.inr ⟨howner, by simp [mholding, Label.actor]⟩
    · cases hstep with
      | handleThrows _ hpoint => exact absurd rfl (htalker (by simp [hpoint, hands]))
  | thread e sys hstep =>
    refine Or.inr ⟨howner, ?_⟩
    rcases h.mowner howner with ⟨rfl, -⟩ | ⟨rfl, hclosing⟩
    · simp [mholding, Label.actor]
    · have hcloses := (h.closing hclosing).1
      cases hstep with
      | finished hpoint | announced hpoint =>
        simp [mholding, Label.actor, hpoint, System.goto]
      | initialized hpoint | initFailed hpoint | closesEarly hpoint | receives _ hpoint
      | receiveFailed hpoint | closes hpoint | dropped hpoint | constructed hpoint
      | constructThrows _ hpoint | handled hpoint | handleThrows _ hpoint | released hpoint
      | left hpoint | copyCrashes hpoint =>
        simp [hpoint, Process.closes] at hcloses
      | freeCrashes hpoint => rcases hpoint with hpoint | hpoint <;>
          simp [hpoint, Process.closes] at hcloses

/-- Each of its own steps brings the owner of the mutex closer to giving it back, and no step of
another thread takes it away. -/
theorem step_mholds (h : Reachable L Run.always s) (hs : step L l s = some s')
    (howner : s.talkerMutex.owner = some t) : s'.talkerMutex.owner = none ∨
      s'.talkerMutex.owner = some t ∧
        s'.mholding t + (decide (l.actor = some t)).toNat ≤ s.mholding t := by
  have hlocked := (locked h).2
  obtain ⟨-, ⟨c, rfl, hmove⟩ | ⟨-, hmove⟩⟩ := step_moves hlocked hs
  · rcases hlocked.mowner howner with ⟨rfl, hsending⟩ | ⟨rfl, -⟩
    · exact Or.inl (hmove.mholds hlocked hsending)
    · obtain ⟨howner', hsame⟩ := hmove.melsewhere hlocked howner
      exact Or.inr ⟨howner', by simp [Label.actor, hsame]⟩
  · exact hmove.mholds hlocked howner

/-- The owner of the mutex of `CynaraTalker` can go on. -/
theorem mowner_enabled (h : Locked s) (hfinal : s.system.agent.pc.isFinal = false)
    (howner : s.talkerMutex.owner = some t) :
    ∃ l s', l.actor = some t ∧ step L l s = some s' := by
  rcases h.mowner howner with ⟨rfl, hsending⟩ | ⟨rfl, hclosing⟩
  · obtain ⟨c, hc⟩ := Option.isSome_iff_exists.1 hsending
    obtain ⟨next, hcode⟩ := code_sends (h.sending hsending)
    rcases main_enabled (L := L) (c := c) h hfinal (by simp [hc]) with
      ⟨s', hs'⟩ | ⟨t, ht, ⟨⟨next', hcode'⟩, -⟩ | ⟨-, -, howner'⟩⟩
    · exact ⟨_, s', rfl, hs'⟩
    · simp [hcode] at hcode'
    · exact absurd (Option.some.inj (howner'.symm.trans howner)) ht
  · obtain ⟨hcloses, hout⟩ := h.closing hclosing
    have hthread : ∀ sys, System.threadStep .proceed s.system = some sys →
        step L (.thread .proceed) s = some { s with system := sys } := by
      intro sys hsys
      simp [step, hfinal, Process.threadStep, hclosing, hsys, hands_of_closes hcloses, hout]
    cases hpoint : s.system.thread.point <;> rw [hpoint] at hcloses <;>
      simp only [closes, Bool.false_eq_true] at hcloses
    · exact ⟨.thread .proceed, _, rfl, hthread _ (by simp only [System.threadStep, hpoint]; rfl)⟩
    · exact ⟨.thread .proceed, _, rfl, hthread _ (by simp only [System.threadStep, hpoint]; rfl)⟩
    · have hunlock : ∃ s', s.munlockStep = some s' := by
        rw [munlockStep, if_pos ⟨hpoint, hclosing⟩]
        split <;> exact ⟨_, rfl⟩
      obtain ⟨s', hs'⟩ := hunlock
      exact ⟨.munlock, s', rfl, by simpa [step, hfinal] using hs'⟩

/-- Nobody owns both mutexes: in a critical section there is no `mlock`. -/
theorem Locked.one_mutex (h : Locked s) (howner : s.mutex.owner = some t) :
    s.talkerMutex.owner ≠ some t := by
  intro howner'
  rcases h.mowner howner' with ⟨rfl, hsending⟩ | ⟨rfl, hclosing⟩
  · obtain ⟨next, hcode⟩ := code_sends (h.sending hsending)
    have howns : s.owns := (h.guards .main).1 howner
    simp [(code_call hcode h.expects).1] at howns
  · exact (h.guards .talker).1 howner (h.closing hclosing).2

/-! ### Deadlocks -/

/-- **The rule for a mutex.** Whoever owns it gives it back after so many of its own steps. -/
theorem passes_of_holds (mutex : Process → Mutex ThreadId) (steps : Process → ℕ)
    (hpos : ∀ s, 0 < steps s)
    (hholds : ∀ {l s s'}, Reachable L Run.always s → step L l s = some s' →
      (mutex s).owner = some t → (mutex s').owner = none ∨ (mutex s').owner = some t ∧
        steps s' + (decide (l.actor = some t)).toNat ≤ steps s)
    (h : Reachable L Run.always s) (howner : (mutex s).owner = some t) {ls : List Label}
    (hs : Run.exec (step L) Run.always ls s = some s')
    (hlong : steps s ≤ ls.countP fun l => l.actor = some t) :
    Run.Passes (step L) (fun s => (mutex s).owner = none) ls s := by
  refine @Run.exec_passes _ _ _
    (fun n s => Reachable L Run.always s ∧ (mutex s).owner = some t ∧ steps s = n) _
    (fun l => l.actor = some t) (fun _ => false) 0 ?_ ?_ _ _ _ _ hs ⟨h, howner, rfl⟩ (by simpa)
  · rintro s ⟨-, -, hzero⟩
    exact absurd hzero (Nat.ne_of_gt (hpos s))
  · rintro l n s s' ⟨hr, howner, rfl⟩ hs
    rcases hholds hr hs howner with hfree | ⟨howner', hle⟩
    · exact Or.inl hfree
    · exact Or.inr ⟨_, ⟨hr.step l trivial hs, howner', rfl⟩, by simpa using hle⟩

/-- **No deadlock.** Before the process has ended, the main thread can go on with any call, or with
the one that it is in, or it waits for a mutex that another thread owns, or for the end of the
thread that owns it. No thread owns both mutexes, and whoever owns one can go on. In any run it
gives `m_mutex` back within seven of its own steps, and the mutex of `CynaraTalker` within three,
whatever the others do. -/
theorem deadlock_free (h : Reachable L Run.always s) (hfinal : s.system.agent.pc.isFinal = false) :
    (∀ c, (∀ c' ∈ s.sending, c = c') → (∃ s', step L (.main c) s = some s') ∨ s.Waits L c) ∧
      (∀ t, s.mutex.owner = some t → s.talkerMutex.owner ≠ some t ∧
        (∃ l s', l.actor = some t ∧ step L l s = some s') ∧
        ∀ ls s', Run.exec (step L) Run.always ls s = some s' →
          7 ≤ ls.countP (fun l => l.actor = some t) →
          Run.Passes (step L) (fun s => s.mutex.owner = none) ls s) ∧
      ∀ t, s.talkerMutex.owner = some t → (∃ l s', l.actor = some t ∧ step L l s = some s') ∧
        ∀ ls s', Run.exec (step L) Run.always ls s = some s' →
          3 ≤ ls.countP (fun l => l.actor = some t) →
          Run.Passes (step L) (fun s => s.talkerMutex.owner = none) ls s := by
  have hlocked := (locked h).2
  refine ⟨fun c hc => main_enabled hlocked hfinal hc, fun t howner => ⟨hlocked.one_mutex howner,
    owner_enabled hlocked hfinal howner, fun ls s' hs hlong => ?_⟩, fun t howner =>
      ⟨mowner_enabled hlocked hfinal howner, fun ls s' hs hlong => ?_⟩⟩
  · exact passes_of_holds Process.mutex (fun s => s.holding t) (fun s => (holding_bounds s t).1)
      step_holds h howner hs (Nat.le_trans (holding_bounds s t).2 hlong)
  · exact passes_of_holds Process.talkerMutex (fun s => s.mholding t)
      (fun s => (mholding_bounds s t).1) step_mholds h howner hs
      (Nat.le_trans (mholding_bounds s t).2 hlong)

/-- No dialog can be started for a question, and cynara is told so; but the talker is finishing the
connection, and the main thread waits for it. -/
theorem deadlock_free_closing : ∃ s, Reachable .lp64 Run.always s ∧
    step .lp64 (.main ⟨0, 0, false⟩) s = none ∧ s.Waits .lp64 ⟨0, 0, false⟩ ∧
    (∃ l s', l.actor = some .talker ∧ step .lp64 l s = some s') ∧
    ∀ ls s', Run.exec (step .lp64) Run.always ls s = some s' →
      3 ≤ ls.countP (fun l => l.actor = some .talker) →
      Run.Passes (step .lp64) (fun s => s.talkerMutex.owner = none) ls s := by
  obtain ⟨s, hs, hst⟩ : ∃ s, Reachable .lp64 Run.always s ∧
      (s.system.agent.pc.isFinal, s.talkerMutex.owner, s.sending,
        (step .lp64 (.main ⟨0, 0, false⟩) s).isNone) = (false, some .talker, none, true) :=
    Run.Reachable.exists_of_exec
      ([tick, tick, tick, tick, .thread (.agentInitialize true),
        .thread (.getRequest (some ⟨.ACTION, 1, some question⟩)), .thread (.construct none),
        .lock .talker, .thread (.handle none), .notify .talker, .unlock .talker, .thread .proceed,
        .thread (.getRequest none), .lock .talker, .thread .proceed, .notify .talker,
        .unlock .talker, .thread .proceed, .mlock] ++ List.replicate 7 tick) (by decide +kernel)
  simp only [Prod.mk.injEq, Option.isNone_iff_eq_none] at hst
  obtain ⟨hfinal, howner, hsending, hblocked⟩ := hst
  obtain ⟨hmain, -, htalker⟩ := deadlock_free hs hfinal
  refine ⟨s, hs, hblocked, ?_, htalker .talker howner⟩
  exact (hmain ⟨0, 0, false⟩ (by simp [hsending])).resolve_left fun ⟨s', hs'⟩ => by
    simp [hblocked] at hs'

end AskUser.Process
