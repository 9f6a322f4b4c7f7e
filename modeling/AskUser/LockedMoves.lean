import AskUser.LockInvariant

/-!
# What keeps the invariant of the locks

Every move of the process keeps `Locked`. A call of the main thread comes back to the statement
where the agent is (`code_call_place`), and what the main thread knows while it owns `m_mutex`
stays true (`expects_other`); a thread in its handler is not disturbed by the others (`fits_set`,
`fits_thread`, `fits_put`); and only a `mlock` concerns the mutex of `CynaraTalker`.
-/

namespace AskUser.Process
open Agent CynaraTalker Locks Objects
open AskUser.System (inLoop)

variable {L : Limits} {c : Choice} {s s' : Process} {t : ThreadId} {sys sys' : System}
  {st next : Statement}

/-! ### What the main thread knows, and where its calls lead -/

theorem expects_pc {owns : Bool} {a : Agent} {pc : Pc} :
    st.Expects owns { a with pc := pc } ↔ st.Expects owns a := by
  cases st <;> exact Iff.rfl

/-- What the main thread knows while it owns the mutex stays true, and otherwise it knows
nothing. -/
theorem expects_other {owns : Bool} {a a' : Agent} (h : st.Expects owns a)
    (hsame : owns → SameQueues a a') : st.Expects owns a' := by
  cases howns : owns with
  | true =>
    obtain ⟨hrequests, hresponses⟩ := hsame howns
    subst howns
    revert h
    cases st <;> simp only [Statement.Expects, Queued, hrequests, hresponses, imp_self]
  | false =>
    subst howns
    revert h
    cases st <;> simp [Statement.Expects]

/-- Where a call leads. -/
theorem code_call_place {next : Pc → Statement} {a : Agent} (hcode : code st = .call next)
    (hinv : Inv a) (hpc : a.pc = st.pc) :
    (next (Agent.mainStep L c a).pc ≠ .ended →
      (Agent.mainStep L c a).pc = (next (Agent.mainStep L c a).pc).pc) ∧
    (next (Agent.mainStep L c a).pc = .ended → (Agent.mainStep L c a).pc.isFinal) := by
  have hleft : ∀ {pc : Pc}, inLoop pc = false →
      (left pc ≠ .ended → pc = (left pc).pc) ∧ (left pc = .ended → pc.isFinal) := by
    intro pc hleft
    cases pc <;> simp_all [inLoop, left, Statement.pc, Pc.isFinal]
  have hrun : a.pc.isFinal = false := by
    rw [hpc]
    cases st <;> simp_all [code, Statement.pc, Pc.isFinal]
  have hloop := mainStep_loop (L := L) (c := c) hinv hrun
  have hstart : a.pc = .start → (Agent.mainStep L c a).pc = .outer := by
    intro hpc
    simp only [Agent.mainStep, hpc, call]
    rfl
  have hstopped : a.pc = .stopped → (Agent.mainStep L c a).pc.isFinal := by
    intro hpc
    have hs := mainStep_cases (L := L) (c := c) hinv hrun
    generalize Agent.mainStep L c a = a' at hs
    cases hs with
    | exited | finished => rfl
    | moves hm =>
      rw [hpc] at hm
      cases hm
    | start h | popped h | closed h | cancelled h | duplicate h | unknownCancel h | thrown h
    | startFailed h | clashed h | recorded h | poppedResponse h | answered h | unmatched h
    | cleaned h => simp [hpc] at h
  generalize Agent.mainStep L c a = a' at *
  have hgone : ∀ {next : Pc → Statement}, (∀ pc, inLoop pc = false → next pc = left pc) →
      inLoop a'.pc = false → (next a'.pc ≠ .ended → a'.pc = (next a'.pc).pc) ∧
        (next a'.pc = .ended → a'.pc.isFinal) := by
    intro next hnext h
    rw [hnext _ h]
    exact hleft h
  cases st <;> simp only [code, Instruction.call.injEq, reduceCtorEq] at hcode <;> subst hcode
  case start => exact ⟨fun _ => hstart hpc, fun h => by simp at h⟩
  case finish => exact ⟨fun h => absurd rfl h, fun _ => hstopped hpc⟩
  case request p =>
    cases hloop with
    | left h =>
      refine hgone (fun pc hpc => ?_) h
      cases pc <;> first | rfl | simp [inLoop] at hpc
    | closed p' h h' => simp [h', afterRequest, Statement.pc]
    | processed p' h h' => simp [h', afterRequest, Statement.pc]
    | start h | wait h | wake h | popRequest _ h | onlyResponses h | idle h | popResponse _ h
    | noResponse h | answered _ h | cleaned h => simp [hpc, Statement.pc] at h
  case response r =>
    cases hloop with
    | left h =>
      refine hgone (fun pc hpc => ?_) h
      cases pc <;> first | rfl | simp [inLoop] at hpc
    | answered q h h' => simp [h', afterResponse, Statement.pc]
    | start h | wait h | wake h | popRequest _ h | onlyResponses h | idle h | popResponse _ h
    | noResponse h | closed _ h | processed _ h | cleaned h => simp [hpc, Statement.pc] at h
  case cleanup =>
    cases hloop with
    | left h =>
      refine hgone (fun pc hpc => ?_) h
      cases pc <;> first | rfl | simp [inLoop] at hpc
    | cleaned h h' => simp [h', afterCleanup, Statement.pc]
    | start h | wait h | wake h | popRequest _ h | onlyResponses h | idle h | popResponse _ h
    | noResponse h | closed _ h | processed _ h | answered _ h => simp [hpc, Statement.pc] at h

theorem pop_frame {pop : System → Option (System × Statement)} {owns : Bool}
    (hcode : code st = .pop pop) (hpop : pop sys = some (sys', next))
    (h : st.Expects owns sys.agent) : next.Expects owns sys'.agent ∧ next ≠ .ended ∧
      sys'.thread = sys.thread ∧ sys'.agent.dialogs = sys.agent.dialogs := by
  cases code_popped hcode hpop with
  | request hst | response hst =>
    subst hst
    exact ⟨h.1, by simp, rfl, rfl⟩

theorem MainMove.same_thread (hm : MainMove L c s s') (h : Locked s) :
    s'.system.thread = s.system.thread := by
  cases hm with
  | pops pop sys st hcode hpop => exact (pop_frame hcode hpop h.expects).2.2.1
  | locks | unlocks | leaves | tests | sends | calls => rfl

/-! ### What the moves keep of the mutex of `CynaraTalker` -/

theorem Mlocked.same (h : Mlocked s) (hmutex : s'.talkerMutex = s.talkerMutex)
    (hsending : s'.sending = s.sending) (hclosing : s'.closing = s.closing)
    (hcall : s.sending.isSome → s'.statement.sends)
    (hends : s.closing → closes s'.system.thread.point ∧ s'.handler .talker = .outside) :
    Mlocked s' where
  mguards := by
    rw [hmutex]
    refine h.mguards.congr fun t => ?_
    cases t <;> simp [mlocked, hsending, hclosing]
  sending hs := hcall (hsending ▸ hs)
  closing hs := hends (hclosing ▸ hs)

theorem code_sends (h : st.sends) : ∃ next, code st = .call next := by
  cases st <;> simp_all [Statement.sends, code]

/-- Where the main thread is when its call comes to `sendResponse`. -/
theorem sends_of_sendsResponse {next : Pc → Statement} {a : Agent} (hcode : code st = .call next)
    (hpc : a.pc = st.pc) (hsends : sendsResponse L c a) : st.sends := by
  cases st <;> simp_all [Statement.sends, Statement.pc, code, sendsResponse]

theorem MainMove.mlocked (hm : MainMove L c s s') (h : Locked s) : Mlocked s' := by
  -- no call is in `sendResponse` where no call is next
  have quiet : ∀ {i}, code s.statement = i → (∀ next, i ≠ .call next) →
      s.sending.isSome → s'.statement.sends := by
    intro i hi hno hsending
    obtain ⟨next, hcode⟩ := code_sends (h.sending hsending)
    exact absurd (hi.symm.trans hcode) (hno next)
  have hthread := hm.same_thread h
  cases hm with
  | locks next hcode | leaves next hcode | tests test hcode =>
    exact h.same rfl rfl rfl (quiet hcode (by simp)) h.closing
  | unlocks next hcode =>
    rcases hcode with hcode | hcode
    · exact h.same rfl rfl rfl (quiet hcode (by simp)) h.closing
    · exact h.same rfl rfl rfl (quiet hcode (by simp)) h.closing
  | pops pop sys st hcode hpop =>
    refine h.same rfl rfl rfl (quiet hcode (by simp)) ?_
    rw [hthread]
    exact h.closing
  | sends next hcode howns hsending hsends hfree =>
    exact
      { mguards := h.mguards.lock hfree fun t => by cases t <;> simp [Process.mlocked]
        sending := fun _ => by
          refine sends_of_sendsResponse hcode (h.place fun he => ?_) hsends
          simp [he, code] at hcode
        closing := h.closing }
  | calls next m hcode howns hends =>
    refine ⟨?_, fun hs => by simp at hs, h.closing⟩
    cases hends with
    | quiet hsending =>
      exact h.mguards.congr fun t => by cases t <;> simp [Process.mlocked, hsending]
    | sent hsending howner =>
      exact h.mguards.unlock howner fun t => by cases t <;> simp [Process.mlocked]

/-- No handler is called in the scope of `mlock`. -/
theorem hands_of_closes {point : Point} (h : closes point) : Process.hands point = false := by
  cases point <;> simp_all [closes, Process.hands]

/-- The scope of `mlock` is left by its destructor only. -/
theorem closes_step {e : Event} (hstep : System.ThreadStep sys e sys')
    (h : closes sys.thread.point) : closes sys'.thread.point := by
  cases hstep with
  | finished | announced => rfl
  | freeCrashes hpoint => rcases hpoint with hpoint | hpoint <;> simp [hpoint, closes] at h
  | initialized hpoint | initFailed hpoint | closesEarly hpoint | receives _ hpoint
  | receiveFailed hpoint | closes hpoint | dropped hpoint | constructed hpoint
  | constructThrows _ hpoint | handled hpoint | handleThrows _ hpoint | released hpoint
  | left hpoint | copyCrashes hpoint =>
    simp [hpoint, Process.closes] at h

theorem OtherMove.mlocked {l : Label} (hm : OtherMove s l s') (h : Locked s) : Mlocked s' := by
  have silent : Process.hands s.system.thread.point → ¬ s.closing := fun hhands hclosing => by
    simp [hands_of_closes (h.closing hclosing).1] at hhands
  -- the thread of `CynaraTalker` stays out of its handler
  have stays : ∀ t hd, s.handler t ≠ .outside → s.closing →
      closes s.system.thread.point ∧ (s.setHandler t hd).handler .talker = .outside := by
    intro t hd hin hclosing
    obtain ⟨hcloses, hout⟩ := h.closing hclosing
    have ht : t ≠ .talker := fun he => hin (he ▸ hout)
    exact ⟨hcloses, by simpa [setHandler, ht.symm] using hout⟩
  cases hm with
  | locked t hcalling hout =>
    refine h.same rfl rfl rfl h.sending fun hclosing => ?_
    obtain ⟨hcloses, htalker⟩ := h.closing hclosing
    have ht : t ≠ .talker := by
      rintro rfl
      exact silent hcalling hclosing
    exact ⟨hcloses, by simpa [setHandler, ht.symm] using htalker⟩
  | handed e sys hstep hhands =>
    exact h.same rfl rfl rfl h.sending fun hc => (silent hhands hc).elim
  | posted u ret button a ha hlocked =>
    exact h.same rfl rfl rfl h.sending (stays (.dialog u) .pushed (by simp [hlocked]))
  | threw u a => exact h.same rfl rfl rfl h.sending h.closing
  | threwLocked u a ha hlocked =>
    exact h.same rfl rfl rfl h.sending (stays (.dialog u) .outside (by simp [hlocked]))
  | notified t hpushed => exact h.same rfl rfl rfl h.sending (stays t .notified (by simp [hpushed]))
  | woken t n hpushed hst =>
    refine h.same rfl rfl rfl (fun hsending => ?_) (stays t .notified (by simp [hpushed]))
    simpa [hst, Statement.sends] using h.sending hsending
  | unlocked t hnotified =>
    exact h.same rfl rfl rfl h.sending (stays t .outside (by simp [hnotified]))
  | thread e sys hstep hhands hout =>
    exact h.same rfl rfl rfl h.sending fun hclosing =>
      ⟨closes_step hstep (h.closing hclosing).1, hout⟩
  | thrown x sys hstep | unwound x sys hstep =>
    refine h.same rfl rfl rfl h.sending fun hclosing => ?_
    cases hstep with
    | handleThrows _ hpoint =>
      exact (silent (by simp [hpoint, Process.hands]) hclosing).elim
  | finished u a => exact h.same rfl rfl rfl h.sending h.closing
  | mlocks hpoint hout hfree =>
    exact
      { mguards := h.mguards.lock hfree fun t => by cases t <;> simp [Process.mlocked]
        sending := h.sending
        closing := fun _ => ⟨by simp [hpoint, closes], hout⟩ }
  | munlocks hpoint hclosing howner =>
    exact
      { mguards := h.mguards.unlock howner fun t => by cases t <;> simp [Process.mlocked]
        sending := h.sending
        closing := fun hc => by simp at hc }
  | sigterm => exact h.same rfl rfl rfl h.sending h.closing

/-! ### What the moves keep -/

theorem Locked.mainMove (h : Locked s) (hinv : Inv s.system.agent)
    (hfinal : s.system.agent.pc.isFinal = false) (hm : MainMove L c s s') : Locked s' := by
  have hplace : s.system.agent.pc = s.statement.pc := h.place fun he => by
    simp [h.ended he] at hfinal
  have hmlocked := hm.mlocked h
  -- a move that changes no more than the place, and whether `lock` owns the mutex
  have goes : ∀ {next : Statement} {m : Mutex ThreadId} {owns : Bool}, next ≠ .ended →
      Mlocked { s.goto next with mutex := m, owns := owns } →
      m.Guards (inside { s.goto next with mutex := m, owns := owns }) →
      next.Expects owns s.system.agent →
      Locked { s.goto next with mutex := m, owns := owns } := fun hne hmlocked hguards hexpects =>
    { toMlocked := hmlocked
      guards := hguards
      expects := expects_pc.2 hexpects
      place := fun _ => rfl
      ended := fun he => absurd he hne
      main := h.main
      fits := fun _ => h.fits hfinal }
  cases hm with
  | locks next hcode howns hfree =>
    obtain ⟨-, hne, hexpects⟩ := code_lock hcode
    refine goes hne hmlocked (h.guards.lock hfree fun t => ?_) (hexpects _).1
    cases t <;> simp [inside, goto]
  | unlocks next hcode howns howner =>
    obtain ⟨hne, hexpects⟩ : next ≠ .ended ∧ ∀ a, next.Expects false a := by
      rcases hcode with hcode | hcode
      · exact ⟨(code_unlock hcode).2.1, fun a => ((code_unlock hcode).2.2 a).1⟩
      · exact (code_destroy hcode).2
    refine goes hne hmlocked (h.guards.unlock howner fun t => ?_) (hexpects _)
    cases t <;> simp [inside, goto]
  | leaves next hcode howns =>
    obtain ⟨-, hne, hexpects⟩ := code_destroy hcode
    exact goes hne hmlocked (h.guards.congr fun t => by cases t <;> rfl) (howns ▸ hexpects _)
  | tests test hcode =>
    obtain ⟨hexpects, hne⟩ := code_test hcode s.system.agent h.expects
    exact goes hne hmlocked (h.guards.congr fun t => by cases t <;> rfl) hexpects
  | pops pop sys st hcode hpop =>
    obtain ⟨hexpects, hne, hthread, hdialogs⟩ := pop_frame hcode hpop h.expects
    exact
      { toMlocked := hmlocked
        guards := h.guards.congr fun t => by cases t <;> rfl
        expects := expects_pc.2 hexpects
        place := fun _ => rfl
        ended := fun he => absurd he hne
        main := h.main
        fits := fun _ t => (h.fits hfinal t).same hthread hdialogs }
  | sends next hcode howns =>
    exact
      { toMlocked := hmlocked
        guards := h.guards.congr fun t => by cases t <;> rfl
        expects := h.expects
        place := h.place
        ended := h.ended
        main := h.main
        fits := h.fits }
  | calls next m hcode howns =>
    obtain ⟨hplace', hended⟩ := code_call_place (L := L) (c := c) hcode hinv hplace
    refine
      { toMlocked := hmlocked
        guards := h.guards.congr fun t => by cases t <;> rfl
        expects := ?_
        place := hplace'
        ended := hended
        main := h.main
        fits := fun hfinal' t => ?_ }
    · show Statement.Expects s.owns _ _
      rw [howns]
      exact (code_call hcode h.expects).2 _ _
    · have hfits := h.fits hfinal t
      cases t with
      | main | talker => exact hfits
      | dialog u =>
        intro hin
        obtain ⟨ui, hu, ht⟩ := hfits hin
        have hunfinished : ui.thread ≠ .finished := by
          rw [ht]
          cases s.handler (.dialog u) <;> simp [Handler.threadState]
        obtain ⟨ui', hu', ht'⟩ := mainStep_unfinished hinv hfinal hfinal' hu hunfinished
        exact ⟨ui', hu', ht'.trans ht⟩

/-- While the thread of `CynaraTalker` may call its handler, it has not set its promise. -/
theorem promises_of_hands (h : System.Sound s.system) (hfinal : s.system.agent.pc.isFinal = false)
    (hhands : Process.hands s.system.thread.point) : s.system.thread.promises = 0 := by
  have hstage := (h.stage hfinal).1
  generalize s.system.thread.point = point at hhands hstage
  cases point <;> first | exact hstage.1 | simp [Process.hands] at hhands

theorem threadStep_promises {e : Event} (hs : System.ThreadStep s.system e sys)
    (hhands : Process.hands s.system.thread.point) :
    sys.thread.promises = s.system.thread.promises := by
  cases hs with
  | receives m => rw [Thread.obtain_frame]
  | constructed hpoint htype hcopy => rw [Thread.copyData_frame hcopy]
  | released hpoint hfree | left hpoint hfree => rw [Thread.freeData_frame hfree]
  | announced hpoint => simp [Process.hands, hpoint] at hhands
  | _ => rfl

theorem inside_set {h : Handler} (ht : t ≠ .main) {t' : ThreadId} :
    (s.setHandler t h).inside t' ↔ if t' = t then h ≠ .outside else s.inside t' := by
  cases t with
  | main => exact absurd rfl ht
  | talker => cases t' <;> simp [inside, setHandler]
  | dialog u =>
    cases t' with
    | main | talker => simp [inside, setHandler]
    | dialog v => by_cases hv : v = u <;> simp [inside, setHandler, hv]

/-- One thread goes on in its handler, and what holds of the others is kept. -/
theorem fits_set {h : Handler} (hself : Fits sys h t)
    (hother : ∀ t', t' ≠ t → Fits sys (s.handler t') t') (t' : ThreadId) :
    Fits sys ((s.setHandler t h).handler t') t' := by
  by_cases ht : t' = t
  · subst ht
    simpa [setHandler] using hself
  · simpa [setHandler, ht] using hother t' ht

/-- `notify_one` follows the push. -/
theorem fits_notified (hpushed : s.handler t = .pushed) (h : Fits s.system (s.handler t) t) :
    Fits s.system .notified t := by
  rw [hpushed] at h
  cases t with
  | main => trivial
  | talker => exact ⟨by simp, fun _ => h.2 (by simp)⟩
  | dialog u => exact fun _ => h (by simp)

/-- A statement of `CynaraTalker::run` is nothing to the other threads. -/
theorem fits_thread {e : Event} (hstep : System.ThreadStep s.system e sys)
    (h : Fits s.system (s.handler t) t) (hout : t = .talker → s.handler .talker = .outside) :
    Fits sys (s.handler t) t := by
  cases t with
  | main => trivial
  | talker =>
    rw [hout rfl]
    exact fits_outside
  | dialog u =>
    intro hin
    rw [hstep.agent.1]
    exact h hin

/-- The thread of a dialog that is in no handler goes on. -/
theorem fits_put {u : UIPtr} {ui : AskUINotificationBackend} {h : Handler}
    (hf : Fits sys h t) (hout : t = .dialog u → h = .outside)
    (hdialogs : sys'.agent.dialogs = sys.agent.dialogs.put u ui)
    (hthread : sys'.thread = sys.thread) : Fits sys' h t := by
  cases t with
  | main => trivial
  | talker => simpa [Fits, hthread] using hf
  | dialog v =>
    intro hin
    have hne : v ≠ u := fun he => hin (hout (by rw [he]))
    simpa [hdialogs, Dialogs.put, hne] using hf hin

theorem Locked.otherMove (h : Locked s) (hsound : System.Sound s.system)
    (hfinal : s.system.agent.pc.isFinal = false) {l : Label} (hm : OtherMove s l s') :
    Locked s' := by
  have hexpects : s.statement.Expects s.owns s'.system.agent :=
    expects_other h.expects (h.sameQueues hm)
  have hended : s.statement ≠ .ended := fun he => by simp [h.ended he] at hfinal
  have hplace : s'.system.agent.pc = s.statement.pc := hm.alongside.pc.trans (h.place hended)
  have hmlocked := hm.mlocked h
  have hfits := h.fits hfinal
  have hnot : ∀ {t}, s.handler t ≠ .outside → t ≠ .main := by
    rintro t hin rfl
    exact hin h.main
  have hmain : ∀ {t hd}, t ≠ .main → (s.setHandler t hd).handler .main = .outside := by
    intro t hd ht
    simpa [setHandler, ht.symm] using h.main
  have hinside : ∀ {t}, s.handler t ≠ .outside → s.inside t := fun hin =>
    (inside_iff h.main).2 (Or.inr hin)
  cases hm with
  | locked t hcalling hout hfree =>
    have ht := calling_not_main hcalling
    refine ⟨hmlocked, h.guards.lock hfree fun t' => ?_, hexpects, fun _ => hplace,
      fun he => absurd he hended, hmain ht, fun _ => fits_set ?_ fun t' _ => hfits t'⟩
    · show (s.setHandler t .locked).inside t' ↔ _
      rw [inside_set ht]
      by_cases hte : t' = t <;> simp [hte]
    · cases t with
      | main => trivial
      | talker => exact ⟨fun _ => hcalling, fun _ => promises_of_hands hsound hfinal hcalling⟩
      | dialog u =>
        intro _
        simp only [calling, Option.any_eq_true, decide_eq_true_eq] at hcalling
        exact hcalling
  | handed e sys hstep hhands hquiet hlocked =>
    refine ⟨hmlocked, h.guards.congr fun t' => ?_, hexpects, fun _ => hplace,
      fun he => absurd he hended, h.main, fun _ => fits_set ⟨by simp, fun _ => ?_⟩ fun t' ht' =>
        fits_thread (s := s) hstep (hfits t') fun he => absurd he ht'⟩
    · show (s.setHandler .talker .pushed).inside t' ↔ _
      rw [inside_set (by simp)]
      by_cases hte : t' = .talker <;> simp [hte, inside, hlocked]
    · show sys.thread.promises = 0
      rw [threadStep_promises hstep hhands]
      exact (hfits .talker).2 (by simp [hlocked])
  | posted u ret button a ha hlocked =>
    obtain ⟨ui, hui, ht, heq⟩ := postStep_spec ha
    have hdialogs : a.dialogs = s.system.agent.dialogs.put u { ui with thread := .posted } := by
      rw [heq]
      rfl
    refine ⟨hmlocked, h.guards.congr fun t' => ?_, hexpects, fun _ => hplace,
      fun he => absurd he hended, h.main, fun _ => fits_set (fun _ =>
        ⟨{ ui with thread := .posted }, ?_, rfl⟩) fun t' ht' =>
          fits_put (hfits t') (fun he => absurd he ht') hdialogs rfl⟩
    · show (s.setHandler (.dialog u) .pushed).inside t' ↔ _
      rw [inside_set (by simp)]
      by_cases hte : t' = .dialog u <;> simp [hte, inside, hlocked]
    · show a.dialogs.objects.cell u = _
      rw [hdialogs]
      simp [Dialogs.put, hui]
  | notified t hpushed hst =>
    have hin : s.handler t ≠ .outside := by simp [hpushed]
    refine ⟨hmlocked, h.guards.congr fun t' => ?_, hexpects, fun _ => hplace,
      fun he => absurd he hended, hmain (hnot hin), fun _ => fits_set ?_ fun t' _ => hfits t'⟩
    · rw [inside_set (hnot hin)]
      by_cases hte : t' = t
      · simp [hte, hinside hin]
      · simp [hte]
    · exact fits_notified (s := s) hpushed (hfits t)
  | woken t n hpushed hst =>
    have hin : s.handler t ≠ .outside := by simp [hpushed]
    refine ⟨hmlocked, h.guards.congr fun t' => ?_, ?_, fun _ => ?_, fun he => absurd he (by simp),
      hmain (hnot hin), fun _ => fits_set ?_ fun t' _ => hfits t'⟩
    · show (s.setHandler t .notified).inside t' ↔ _
      rw [inside_set (hnot hin)]
      by_cases hte : t' = t
      · simp [hte, hinside hin]
      · simp [hte]
    · have hawake := h.expects
      rw [hst] at hawake
      exact hawake
    · show s.system.agent.pc = .waiting
      rw [h.place hended, hst]
      rfl
    · exact fits_notified (s := s) hpushed (hfits t)
  | unlocked t hnotified howner =>
    have ht := hnot (t := t) (by simp [hnotified])
    refine ⟨hmlocked, h.guards.unlock howner fun t' => ?_, hexpects, fun _ => hplace,
      fun he => absurd he hended, hmain ht, fun _ => fits_set fits_outside fun t' _ => hfits t'⟩
    show (s.setHandler t .outside).inside t' ↔ _
    rw [inside_set ht]
    by_cases hte : t' = t <;> simp [hte]
  | thread e sys hstep hhands hout =>
    exact ⟨hmlocked, h.guards, hexpects, fun _ => hplace, fun he => absurd he hended, h.main,
      fun _ t => fits_thread (s := s) hstep (hfits t) fun _ => hout⟩
  | thrown x sys hstep hout =>
    exact ⟨hmlocked, h.guards, hexpects, fun _ => hplace, fun he => absurd he hended, h.main,
      fun _ t => fits_thread (s := s) hstep (hfits t) fun _ => hout⟩
  | unwound x sys hstep hlocked howner =>
    refine ⟨hmlocked, h.guards.unlock howner fun t' => ?_, hexpects, fun _ => hplace,
      fun he => absurd he hended, h.main,
      fun _ => fits_set fits_outside fun t' ht' =>
        fits_thread (s := s) hstep (hfits t') fun he => absurd he ht'⟩
    show (s.setHandler .talker .outside).inside t' ↔ _
    rw [inside_set (by simp)]
    by_cases hte : t' = .talker <;> simp [hte]
  | threw u a ha hout =>
    obtain ⟨ui, hui, ht, rfl⟩ := throwStep_spec ha
    refine ⟨hmlocked, h.guards, hexpects, fun _ => hplace, fun he => absurd he hended, h.main,
      fun _ t => ?_⟩
    exact fits_put (hfits t) (fun he => he ▸ hout) rfl rfl
  | threwLocked u a ha hlocked howner =>
    obtain ⟨ui, hui, ht, rfl⟩ := throwStep_spec ha
    refine ⟨hmlocked, h.guards.unlock howner fun t' => ?_, hexpects, fun _ => hplace,
      fun he => absurd he hended, h.main,
      fun _ => fits_set fits_outside fun t' ht' =>
        fits_put (hfits t') (fun he => absurd he ht') rfl rfl⟩
    show (s.setHandler (.dialog u) .outside).inside t' ↔ _
    rw [inside_set (by simp)]
    by_cases hte : t' = .dialog u <;> simp [hte]
  | finished u a ha hout =>
    obtain ⟨ui, hui, ht, rfl⟩ := finishStep_spec ha
    exact ⟨hmlocked, h.guards, hexpects, fun _ => hplace, fun he => absurd he hended, h.main,
      fun _ t => fits_put (hfits t) (fun he => he ▸ hout) rfl rfl⟩
  | mlocks | munlocks =>
    exact ⟨hmlocked, h.guards.congr fun t => by cases t <;> rfl, hexpects, fun _ => hplace,
      fun he => absurd he hended, h.main, fun _ => hfits⟩
  | sigterm =>
    exact ⟨hmlocked, h.guards, hexpects, fun _ => hplace, fun he => absurd he hended, h.main,
      fun _ t => (hfits t).same rfl rfl⟩

end AskUser.Process
