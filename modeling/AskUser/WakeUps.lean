import AskUser.Races

/-!
# Lost wake-ups

`run` waits without a predicate: it does not look at the queues before `wait_for`. `notify_one` only
wakes a thread that waits already, so a push that comes after the last look at the queues and before
`wait_for` wakes nobody, and what was pushed lies in its queue until the timeout. That is the only
way (`lost_wake_up`): what is pushed while the main thread sleeps always wakes it, and a thread that
goes to sleep with both queues empty misses nothing.

`Watched` is the invariant. It speaks of the queues, of the statement of the main thread, and of
`missed`, which remembers such a push.
-/

namespace AskUser.Process
open Agent CynaraTalker Locks Objects

variable {L : Limits} {c : Choice} {s s' : Process} {t : ThreadId} {st next : Statement}

/-- The main thread does not look at the queues here, nor has it since it was in `wait_for` or
earlier. -/
def Statement.blind : Statement → Bool
  | .start | .whileRunning | .construct | .waitFor | .asleep _ | .relock | .ifStopped
  | .endOfBody | .endOfRun | .finish => true
  | _ => false

/-- What the main thread can have overlooked, where `notifying` says that a thread has pushed and
not yet notified. -/
structure Watched (st : Statement) (missed : Bool) (notifying : Prop) (a : Agent) : Prop where
  /-- A Close leaves the rest of the queues behind. -/
  unaware : st.unaware → Queued a → missed ∨
    a.stopFlag ∧ (st = .endOfBody ∨ st = .whileRunning)
  asleep : ∀ n, st = .asleep n → Queued a → missed ∨ n ∨ notifying
  missed : missed → st ≠ .ended → st.blind ∧ Queued a

section Main

variable {missed owns : Bool} {notifying : Prop} {a a' : Agent}

theorem Watched.lock (h : Watched st missed notifying a) (hcode : code st = .lock next) :
    Watched next (missed && next ≠ .whileRequests) notifying a := by
  obtain ⟨hunaware, -, hmissed⟩ := h
  cases st <;> simp only [code, Instruction.lock.injEq, reduceCtorEq] at hcode <;> subst hcode <;>
    constructor <;> simp_all [Statement.unaware, Statement.blind]

/-- The main thread goes to sleep with what it is about to overlook. -/
theorem Watched.unlock (h : Watched st missed notifying a) (hcode : code st = .unlock next) :
    Watched next (missed && next ≠ .whileRequests) notifying a := by
  obtain ⟨hunaware, -, hmissed⟩ := h
  cases st <;> simp only [code, Instruction.unlock.injEq, reduceCtorEq] at hcode <;>
    subst hcode <;> constructor <;> simp_all [Statement.unaware, Statement.blind]

theorem Watched.destroy (h : Watched st missed notifying a) (hcode : code st = .destroy next) :
    Watched next (missed && next ≠ .whileRequests) notifying a := by
  obtain ⟨hunaware, -, hmissed⟩ := h
  cases st <;> simp only [code, Instruction.destroy.injEq, reduceCtorEq] at hcode <;>
    subst hcode <;> constructor <;> simp_all [Statement.unaware, Statement.blind]

/-- The main thread leaves the inner loop with both queues empty. -/
theorem Watched.test {test : Agent → Statement} (h : Watched st missed notifying a)
    (hcode : code st = .test test) (hexpects : st.Expects owns a) :
    Watched (test a) (missed && test a ≠ .whileRequests) notifying a := by
  obtain ⟨hunaware, -, hmissed⟩ := h
  cases st <;> simp only [code, Instruction.test.injEq, reduceCtorEq] at hcode <;> subst hcode <;>
    simp only [Statement.Expects] at hexpects <;> simp only <;> (try split_ifs) <;> constructor <;>
    simp_all [Statement.unaware, Statement.blind, Queued]

/-- Where the main thread has looked at the queues, and does not go back to `wait_for`. -/
theorem watched_looking (hunaware : next.unaware = false) (hawake : ∀ n, next ≠ .asleep n) :
    Watched next false notifying a where
  unaware h := by simp [hunaware] at h
  asleep n h := absurd h (hawake n)
  missed h := by simp at h

theorem Watched.not_missed (h : Watched st missed notifying a) (hst : st.blind = false)
    (hended : st ≠ .ended) : missed = false := by
  by_contra hmissed
  simpa [hst] using (h.missed (by simpa using hmissed) hended).1

theorem Watched.pop {pop : System → Option (System × Statement)} {sys sys' : System}
    (h : Watched st missed notifying a) (hcode : code st = .pop pop)
    (hpop : pop sys = some (sys', next)) :
    Watched next (missed && next ≠ .whileRequests) notifying a' := by
  have hlooking : missed = false ∧ next.unaware = false ∧ ∀ n, next ≠ .asleep n := by
    cases code_popped hcode hpop with
    | request hst | response hst =>
      subst hst
      exact ⟨h.not_missed rfl (by simp), rfl, by simp⟩
  rw [hlooking.1]
  exact watched_looking hlooking.2.1 hlooking.2.2

theorem queued_same (h : SameQueues a a') : Queued a' ↔ Queued a := by
  rw [Queued, h.1, h.2, Queued]

/-- The main thread leaves the inner loop for a Close, and sets the flag. -/
theorem Watched.call {target : Pc → Statement} (h : Watched st missed notifying a)
    (hcode : code st = .call target) (hinv : Inv a) (hpc : a.pc = st.pc) :
    Watched (target (Agent.mainStep L c a).pc) missed notifying (Agent.mainStep L c a) := by
  have hrun : a.pc.isFinal = false := by
    rw [hpc]
    cases st <;> simp_all [code, Statement.pc, Pc.isFinal]
  cases st <;> simp only [code, Instruction.call.injEq, reduceCtorEq] at hcode <;> subst hcode
  case start =>
    have hcode : code .start = .call fun _ => .whileRunning := rfl
    have hsame : SameQueues a (Agent.mainStep L c a) :=
      mainStep_sameQueues hcode (by simp) hinv hpc
    constructor
    · intro _ hq
      left
      simpa using h.unaware rfl ((queued_same hsame).1 hq)
    · intro n hn
      simp at hn
    · intro hmissed _
      exact ⟨rfl, (queued_same hsame).2 (h.missed hmissed (by simp)).2⟩
  case request p =>
    obtain rfl := h.not_missed rfl (by simp)
    have hloop := mainStep_loop (L := L) (c := c) hinv hrun
    generalize Agent.mainStep L c a = a' at hloop
    have hclosed : a'.pc = .outer → a'.stopFlag := by
      intro houter
      cases hloop with
      | closed p' h h' hstop => exact hstop
      | left h => simp [houter, System.inLoop] at h
      | start h | wait h | wake h | popRequest _ h | onlyResponses h | idle h | processed _ h
      | popResponse _ h | noResponse h | answered _ h | cleaned h =>
        simp_all [Statement.pc]
    cases hpc' : a'.pc with
    | outer =>
      exact ⟨fun _ _ => Or.inr ⟨hclosed hpc', Or.inl rfl⟩, fun n h => by simp [afterRequest] at h,
        fun h => by simp at h⟩
    | _ => exact watched_looking rfl (by simp [afterRequest, left])
  case response r =>
    obtain rfl := h.not_missed rfl (by simp)
    cases (Agent.mainStep L c a).pc <;>
      exact watched_looking rfl (by simp [afterResponse, left])
  case cleanup =>
    obtain rfl := h.not_missed rfl (by simp)
    cases (Agent.mainStep L c a).pc <;>
      exact watched_looking rfl (by simp [afterCleanup, left])
  case finish =>
    exact ⟨fun h => by simp [Statement.unaware] at h, fun n h => by simp at h,
      fun _ h => absurd rfl h⟩

end Main

/-! ### The invariant -/

/-- A thread has pushed and not yet notified. -/
def notifying (s : Process) : Prop := ∃ t, s.handler t = .pushed

def IsWatched (s : Process) : Prop :=
  Watched s.statement s.missed s.notifying s.system.agent

theorem Watched.goto {missed : Bool} (h : Watched next missed s.notifying s.system.agent) :
    Watched next missed s.notifying { s.system.agent with pc := next.pc } :=
  ⟨h.unaware, h.asleep, h.missed⟩

theorem MainMove.watched (hm : MainMove L c s s') (h : Locked s) (hinv : Inv s.system.agent)
    (hfinal : s.system.agent.pc.isFinal = false) (hw : s.IsWatched) : s'.IsWatched := by
  cases hm with
  | locks next hcode => exact (Watched.lock hw hcode).goto
  | unlocks next hcode =>
    rcases hcode with hcode | hcode
    · exact (Watched.unlock hw hcode).goto
    · exact (Watched.destroy hw hcode).goto
  | leaves next hcode => exact (Watched.destroy hw hcode).goto
  | tests test hcode => exact (Watched.test hw hcode h.expects).goto
  | pops pop sys st hcode hpop => exact Watched.pop hw hcode hpop
  | sends => exact hw
  | calls next m hcode =>
    exact Watched.call hw hcode hinv (h.place fun he => by simp [h.ended he] at hfinal)

section Other

variable {l : Label} {a' : Agent} {hd : Handler}

/-- A step that changes neither the queues nor who is about to notify. -/
theorem Watched.same {missed : Bool} {notifying notifying' : Prop} {a : Agent}
    (h : Watched st missed notifying a) (hsame : SameQueues a a')
    (hstop : a.stopFlag → a'.stopFlag) (hnotifying : notifying → notifying') :
    Watched st missed notifying' a' where
  unaware hst hq := (h.unaware hst ((queued_same hsame).1 hq)).imp_right (And.imp_left hstop)
  asleep n hst hq := (h.asleep n hst ((queued_same hsame).1 hq)).imp_right (Or.imp_right hnotifying)
  missed hmissed hst := ⟨(h.missed hmissed hst).1, (queued_same hsame).2 (h.missed hmissed hst).2⟩

theorem notifying_set (hs : s.handler t ≠ .pushed) (h : s.notifying) :
    (s.setHandler t hd).notifying := by
  obtain ⟨t', ht'⟩ := h
  have hne : t' ≠ t := by
    rintro rfl
    exact hs ht'
  exact ⟨t', by simpa [setHandler, hne] using ht'⟩

/-- A push is missed if the main thread will come to `wait_for` first. -/
theorem watched_pushed {sys : System} (hw : s.IsWatched) (hq : Queued sys.agent) :
    (s.pushed t sys).IsWatched where
  unaware hst _ := Or.inl (by simp [pushed, show s.statement.unaware = true from hst])
  asleep n _ _ := Or.inr (Or.inr ⟨t, by simp [pushed, setHandler]⟩)
  missed hmissed hst := by
    refine ⟨?_, hq⟩
    show s.statement.blind = true
    rcases Bool.or_eq_true_iff.1 hmissed with hmissed | hunaware
    · exact (hw.missed hmissed hst).1
    · revert hunaware
      cases s.statement <;> simp [Statement.unaware, Statement.blind]

/-- A statement of `CynaraTalker::run` that ends in a push. -/
theorem threadStep_pushes {e : Event} {sys : System} (hs : System.ThreadStep s.system e sys)
    (hhands : Process.hands s.system.thread.point) (hquiet : ∀ x, e ≠ .handle (some x)) :
    Queued sys.agent := by
  have hand : ∀ r, Queued (requestHandler s.system.agent r) := fun r =>
    Or.inl (by simp [requestHandler, Requests.hand])
  cases hs with
  | closesEarly | closes => exact hand System.closeRequest
  | @handled r hpoint => exact hand r
  | handleThrows x => exact absurd rfl (hquiet x)
  | initialized hpoint | initFailed hpoint | receives _ hpoint | receiveFailed hpoint
  | dropped hpoint | constructed hpoint | constructThrows _ hpoint | released hpoint | left hpoint
  | finished hpoint | announced hpoint | copyCrashes hpoint =>
    simp [Process.hands, hpoint] at hhands
  | freeCrashes hpoint =>
    rcases hpoint with hpoint | hpoint <;> simp [Process.hands, hpoint] at hhands

theorem OtherMove.watched (hm : OtherMove s l s') (hw : s.IsWatched) : s'.IsWatched := by
  have keeps : ∀ {a' : Agent}, SameQueues s.system.agent a' →
      (s.system.agent.stopFlag → a'.stopFlag) →
      Watched s.statement s.missed s.notifying a' := fun hsame hstop =>
    Watched.same hw hsame hstop id
  cases hm with
  | locked t hcalling hout hfree =>
    exact Watched.same hw ⟨rfl, rfl⟩ id (notifying_set (by simp [hout]))
  | handed e sys hstep hhands hquiet =>
    exact watched_pushed hw (threadStep_pushes hstep hhands hquiet)
  | posted u ret button a ha =>
    obtain ⟨ui, -, -, rfl⟩ := postStep_spec ha
    exact watched_pushed hw (Or.inr (by simp [UIResponseHandler]))
  | threw u a ha =>
    obtain ⟨ui, -, -, rfl⟩ := throwStep_spec ha
    exact keeps ⟨rfl, rfl⟩ id
  | threwLocked u a ha hlocked =>
    obtain ⟨ui, -, -, rfl⟩ := throwStep_spec ha
    exact Watched.same hw ⟨rfl, rfl⟩ id (notifying_set (by simp [hlocked]))
  | mlocks | munlocks => exact hw
  | notified t hpushed hst =>
    -- nobody sleeps
    exact ⟨hw.unaware, fun n h => absurd h (hst n), hw.missed⟩
  | woken t n hpushed hst =>
    refine ⟨fun h => by simp [Statement.unaware] at h, fun n h _ => Or.inr (Or.inl ?_),
      fun h _ => ?_⟩
    · simpa using h.symm
    · exact ⟨rfl, (hw.missed h (by simp [hst])).2⟩
  | unlocked t hnotified =>
    exact Watched.same hw ⟨rfl, rfl⟩ id (notifying_set (by simp [hnotified]))
  | thread e sys hstep hhands =>
    have hsilent := threadStep_silent hstep (Or.inl hhands)
    exact keeps (by rw [hsilent]; exact ⟨rfl, rfl⟩) (threadStep_alongside hstep).stopFlag
  | thrown x sys hstep =>
    have hsilent := threadStep_silent hstep (Or.inr ⟨x, rfl⟩)
    exact keeps (by rw [hsilent]; exact ⟨rfl, rfl⟩) (threadStep_alongside hstep).stopFlag
  | unwound x sys hstep hlocked =>
    have hsilent := threadStep_silent hstep (Or.inr ⟨x, rfl⟩)
    exact Watched.same (keeps (by rw [hsilent]; exact ⟨rfl, rfl⟩)
      (threadStep_alongside hstep).stopFlag) ⟨rfl, rfl⟩ id (notifying_set (by simp [hlocked]))
  | finished u a ha =>
    obtain ⟨ui, -, -, rfl⟩ := finishStep_spec ha
    exact keeps ⟨rfl, rfl⟩ id
  | sigterm => exact keeps ⟨rfl, rfl⟩ fun _ => rfl

end Other

theorem watched_new : new.IsWatched where
  unaware _ hq := by simp [new, System.new, Agent.new, Queued] at hq
  asleep n h := by simp [new] at h
  missed h := by simp [new] at h

theorem watched (h : Reachable L Run.always s) : s.IsWatched := by
  induction h with
  | start => exact watched_new
  | @step s s' l hr _ hs ih =>
    have hlocked := (locked hr).2
    obtain ⟨hfinal, ⟨c, rfl, hmove⟩ | ⟨-, hmove⟩⟩ := step_moves hlocked hs
    · exact hmove.watched hlocked (sound_of_running hr hfinal).inv hfinal ih
    · exact hmove.watched ih

/-- **Lost wake-ups.** The main thread sleeps, nobody has notified it, and no thread is in its
handler. Then one of the queues is not empty if and only if something was pushed since the main
thread last came to look at the queues and before it went to sleep. -/
theorem lost_wake_up (h : Reachable L Run.always s) (hst : s.statement = .asleep false)
    (hfree : s.mutex.owner = none) : Queued s.system.agent ↔ s.missed := by
  have hw := watched h
  constructor
  · intro hq
    rcases hw.asleep false hst hq with hmissed | hnotified | ⟨t, ht⟩
    · exact hmissed
    · simp at hnotified
    · -- who has pushed still owns the mutex
      have hin : s.inside t := (inside_iff (locked h).2.main).2 (Or.inr (by simp [ht]))
      simpa [hfree] using (locked h).2.owner hin
  · intro hmissed
    exact (hw.missed hmissed (by simp [hst])).2

/-- The first question comes while the main thread is on its way to `wait_for`. -/
theorem lost_wake_up_first : ∃ s, Reachable .lp64 Run.always s ∧ s.statement = .asleep false ∧
    s.missed ∧ Queued s.system.agent := by
  obtain ⟨s, hs, hst⟩ : ∃ s, Reachable .lp64 Run.always s ∧
      (s.statement, s.mutex.owner, s.missed) = (.asleep false, none, true) :=
    Run.Reachable.exists_of_exec
      [tick, .thread (.agentInitialize true),
        .thread (.getRequest (some ⟨.ACTION, 1, some question⟩)), .thread (.construct none),
        .lock .talker, .thread (.handle none), .notify .talker, .unlock .talker,
        tick, tick, tick] (by decide +kernel)
  simp only [Prod.mk.injEq] at hst
  obtain ⟨hsleep, hfree, hmissed⟩ := hst
  exact ⟨s, hs, hsleep, hmissed, (lost_wake_up hs hsleep hfree).2 hmissed⟩

end AskUser.Process
