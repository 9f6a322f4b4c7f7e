import AskUser.Connection
import AskUser.Races

/-!
# The connection and its mutex

In the system a response is sent in one step, and so is the connection finished. In the process both
happen in the scope of a `mlock` (`connection_guarded`): the main thread owns the mutex of
`CynaraTalker` when a response is sent, and the thread of `CynaraTalker` owns it when `m_cynara` is
cleared. So it is not cleared while a response is on its way.

That `sendsResponse` picks the calls that send a response, and no others, is `sends_mainStep`.
-/

namespace AskUser

namespace Agent
open Objects RequestType

variable {L : Limits} {c : Choice} {a a' : Agent}

/-- Deletions are no responses. -/
theorem sends_of_deletions (h : (written IsDeletion).rel a a') : sends a' = sends a := by
  obtain ⟨new, hentries, hnew⟩ := h
  refine sends_silent new hentries fun e he x => ?_
  rw [show e.2 = .deleted from hnew e he]
  simp

/-- A call of the main thread sends one response if it comes to `sendResponse`, and none
otherwise. -/
theorem sends_mainStep (h : Inv a) (hrun : a.pc.isFinal = false) :
    (sends (mainStep L c a) = sends a ∧ Process.sendsResponse L c a = false) ∨
      (∃ x, sends (mainStep L c a) = sends a ++ [x]) ∧ Process.sendsResponse L c a = true := by
  have hlast := mainStep_last L c (s := a)
  have hs := mainStep_cases (L := L) (c := c) h hrun
  generalize mainStep L c a = a' at *
  cases hs with
  | start hpc | cleaned hpc => exact Or.inl ⟨rfl, by simp [Process.sendsResponse, hpc]⟩
  | moves hm =>
    refine Or.inl ⟨rfl, ?_⟩
    unfold Process.sendsResponse
    generalize a.pc = pc at hm
    cases hm <;> rfl
  | exited s' hpc | finished s' hpc =>
    exact Or.inl ⟨sends_of_deletions (hlast hpc), by simp [Process.sendsResponse, hpc]⟩
  | @popped p rest hpc =>
    refine Or.inl ⟨?_, by simp [Process.sendsResponse, hpc]⟩
    exact sends_silent [(p, .popped)] rfl (by simp)
  | poppedResponse hpc => exact Or.inl ⟨rfl, by simp [Process.sendsResponse, hpc]⟩
  | unmatched hpc hl => exact Or.inl ⟨rfl, by simp [Process.sendsResponse, hpc, hl]⟩
  | clashed hpc hp ht hl hd hc =>
    exact Or.inl ⟨rfl, by simp [Process.sendsResponse, hpc, hp, ht, hc]⟩
  | @closed p r hpc hp ht =>
    refine Or.inl ⟨?_, by simp [Process.sendsResponse, hpc, hp, ht]⟩
    exact sends_silent [(p, .deleted)] rfl (by simp)
  | @unknownCancel p r hpc hp ht hl =>
    refine Or.inl ⟨?_, by simp [Process.sendsResponse, hpc, hp, ht, hl]⟩
    exact sends_silent [(p, .deleted)] rfl (by simp)
  | @duplicate p q r hpc hp ht hl =>
    refine Or.inl ⟨?_, by simp [Process.sendsResponse, hpc, hp, ht, hl]⟩
    exact sends_silent [(p, .duplicate q), (p, .deleted)] (List.append_assoc _ _ _) (by simp)
  | @thrown p r e hpc hp ht hl hd =>
    refine Or.inl ⟨?_, by simp [Process.sendsResponse, hpc, hp, ht, hd, Except.isOk, Except.toBool]⟩
    exact sends_silent [(p, .thrown e), (p, .deleted)] (List.append_assoc _ _ _) (by simp)
  | @recorded p r d hpc hp ht hl hd hc =>
    refine Or.inl ⟨?_, by simp [Process.sendsResponse, hpc, hp, ht, hc]⟩
    refine sends_silent [(p, .recorded)] ?_ (by simp)
    simp only [Requests.insert_eq hl, Journal.note]
  | @cancelled p q r d hpc hp ht hl =>
    refine Or.inr ⟨⟨(q, ⟨r.type, r.id, [], .cancel p⟩), ?_⟩, by
      simp [Process.sendsResponse, hpc, hp, ht, hl]⟩
    refine sends_append
      [(q, .deleted), (q, .sent ⟨r.type, r.id, [], .cancel p⟩), (p, .deleted)] ?_
    simp [Requests.free, Requests.note, Requests.erase, Journal.note]
  | @startFailed p r d hpc hp ht hl hd hc =>
    refine Or.inr ⟨⟨(p, startFailure r), ?_⟩, by
      simp [Process.sendsResponse, hpc, hp, ht, hl, hd, hc, Except.isOk, Except.toBool]⟩
    refine sends_append [(p, .startFailed), (p, .sent (startFailure r)), (p, .deleted)] ?_
    simp [Requests.free, Requests.note, Journal.note]
  | @answered q p r d hpc hl =>
    refine Or.inr ⟨⟨(p, answer r q), ?_⟩, by simp [Process.sendsResponse, hpc, hl]⟩
    refine sends_append [(p, .sent (answer r q)), (p, .deleted)] ?_
    simp [Requests.free, Requests.note, Requests.erase, Journal.note]

end Agent

namespace Process
open Agent CynaraTalker Connection

variable {L : Limits} {c : Choice} {s s' : Process} {l : Label}

/-- A response is sent at the end of a call that owns the mutex. -/
theorem MainMove.sent (hm : MainMove L c s s') (hinv : Inv s.system.agent)
    (hrun : s.system.agent.pc.isFinal = false)
    (hsent : Agent.sends s'.system.agent ≠ Agent.sends s.system.agent) :
    s.talkerMutex.owner = some .main := by
  cases hm with
  | locks | unlocks | leaves | tests | sends => exact absurd rfl hsent
  | pops pop sys st hcode hpop =>
    refine absurd ?_ hsent
    cases code_popped hcode hpop with
    | @request p => exact sends_silent [(p, .popped)] rfl (by simp)
    | response => rfl
  | calls next m hcode howns hends =>
    cases hends with
    | sent _ howner => exact howner
    | quiet _ _ hquiet =>
      rcases sends_mainStep (L := L) (c := c) hinv hrun with ⟨hsame, -⟩ | ⟨-, hsends⟩
      · exact absurd hsame hsent
      · simp [hquiet] at hsends

/-- The other threads send nothing. -/
theorem OtherMove.same_sends (hm : OtherMove s l s') :
    sends s'.system.agent = sends s.system.agent := by
  cases hm with
  | locked | notified | woken | unlocked | mlocks | munlocks | sigterm => rfl
  | handed e sys hstep | thread e sys hstep => exact sends_threadStep hstep
  | thrown x sys hstep | unwound x sys hstep => exact sends_threadStep hstep
  | posted u ret button a ha =>
    obtain ⟨ui, -, -, rfl⟩ := postStep_spec ha
    rfl
  | threw u a ha | threwLocked u a ha =>
    obtain ⟨ui, -, -, rfl⟩ := throwStep_spec ha
    rfl
  | finished u a ha =>
    obtain ⟨ui, -, -, rfl⟩ := finishStep_spec ha
    rfl

/-- The pointer is cleared by the statement after the constructor of `mlock`. -/
theorem OtherMove.clears (hm : OtherMove s l s') (h : Mlocked s)
    (hopen : opened s.system.thread.point = true)
    (hclosed : opened s'.system.thread.point = false)
    (hintact : s'.system.thread.point ≠ .crashed) :
    l.actor = some .talker ∧ s.talkerMutex.owner = some .talker := by
  have finishes : ∀ {e sys}, System.ThreadStep s.system e sys →
      opened sys.thread.point = false → sys.thread.point ≠ .crashed →
      s.system.thread.point = .finish ∧ e = .proceed := by
    intro e sys hstep hclosed hintact
    cases hstep with
    | copyCrashes | freeCrashes => exact absurd rfl hintact
    | finished hpoint => exact ⟨hpoint, rfl⟩
    | _ => simp_all [opened, System.goto]
  have same : ¬ s'.system.thread = s.system.thread := by
    intro hthread
    simp [hthread, hopen] at hclosed
  cases hm with
  | thread e sys hstep hhands hout hmlock =>
    exact ⟨rfl, (h.mguards .talker).2 (hmlock (finishes hstep hclosed hintact).1)⟩
  | handed e sys hstep hhands =>
    simp [(finishes hstep hclosed hintact).1, Process.hands] at hhands
  | thrown x sys hstep | unwound x sys hstep =>
    exact absurd (finishes hstep hclosed hintact).2 (by simp)
  | locked | notified | woken | unlocked | mlocks | munlocks | sigterm | posted | threw
  | threwLocked | finished => exact absurd rfl same

/-- **The connection has a guard.** Only the main thread sends responses, and it owns the mutex of
`CynaraTalker` then; and when the connection is finished, the thread of `CynaraTalker` owns it. -/
theorem connection_guarded (h : Reachable L Run.always s) (hs : step L l s = some s') :
    (Agent.sends s'.system.agent ≠ Agent.sends s.system.agent →
      l.actor = some .main ∧ s.talkerMutex.owner = some .main) ∧
    (opened s.system.thread.point = true → opened s'.system.thread.point = false →
      l.actor = some .talker ∧ s.talkerMutex.owner = some .talker) := by
  have hlocked := (locked h).2
  have hintact : s'.system.thread.point ≠ .crashed := by
    have hbuffers : Buffers False s'.system.thread :=
      System.buffers (by simp) (locked (h.step l trivial hs)).1
    exact hbuffers.intact
  obtain ⟨hfinal, ⟨c, rfl, hmove⟩ | ⟨-, hmove⟩⟩ := step_moves hlocked hs
  · refine ⟨fun hsent => ⟨rfl, hmove.sent (sound_of_running h hfinal).inv hfinal hsent⟩, ?_⟩
    intro hopen hclosed
    simp [hmove.same_thread hlocked, hopen] at hclosed
  · exact ⟨fun hsent => absurd hmove.same_sends hsent, fun hopen hclosed =>
      hmove.clears hlocked.toMlocked hopen hclosed hintact⟩

end Process

end AskUser
