import AskUser.JournalGrowth
import AskUser.PendingRequests

/-!
# The end of the process

When `run` is over, `main` destroys the agent, and `finish` decides how the process ends. It comes
to its end if there is nothing left to wait for (`Clean`): the thread of `CynaraTalker` has
announced its end, no request is pending, and the threads of all dialogs have finished. Otherwise it
calls `quick_exit`, which reports success also where an exception has ended `run` (`exit_law`).

So the loop of `finish` over `m_requests` never has anything to delete, and no answer is lost in it
(`ended_answered`).
-/

namespace AskUser.Agent
open ByteText RequestType Objects Fallible

/-- How the process ends. -/
inductive ExitStatus
  /-- `EXIT_SUCCESS` -/
  | success
  /-- `EXIT_FAILURE` -/
  | failure
  /-- `std::terminate` -/
  | aborted
  deriving DecidableEq

/-- `main`, from the `try` block on: the agent is destroyed before an exception is caught. What C++
leaves undefined has no status. -/
def exitStatus (s : Agent) : Option ExitStatus :=
  match s.pc with
  | .finished => some (if s.exception.isSome then .failure else .success)
  | .exited => some .success
  | .crashed .terminate => some .aborted
  | _ => none

/-- There is nothing left to wait for. -/
structure Clean (s : Agent) : Prop where
  talker : s.talker = .finished
  requests : s.store.requests.entries = []
  threads : ∀ {u ui}, s.dialogs.objects.cell u = some ui → ui.thread = .finished

variable {L : Limits} {c : Choice} {s s' : Agent} {p : RequestPtr} {a : RequestAct}

/-! ### What `finish` decides -/

/-- `m_requests` stays as it is. -/
def sameRequests : Frame Agent where
  rel s s' := s'.store.requests = s.store.requests
  refl _ := rfl
  trans h h' := h'.trans h

theorem keeps_drainRequests_same (ps : List RequestPtr) :
    Keeps sameRequests (drainRequests ps) := by
  induction ps with
  | nil => exact keeps_pure _
  | cons p ps ih =>
    unfold drainRequests
    refine Keeps.bind (fun _ => rfl) fun _ => Keeps.bind (fun s => ?_) fun _ => ih
    unfold delete
    split
    · exact sameRequests.refl s
    · exact sameRequests.refl s

/-- `finish` comes to its end if the talker's thread can be joined and the dialogs are all done.
Before that it leaves `m_requests` alone. -/
theorem finish_returns (h : Inv s) (hpc : s.pc = .stopped) : ∃ ret s',
    noexcept finish s = .ok ret s' ∧ s'.exception = s.exception ∧
      (ret = true ↔ s.talker = .finished ∧
        ∀ u ui, s.dialogs.objects.cell u = some ui → ui.Done) ∧
      (ret = false → s'.store.requests = s.store.requests) := by
  by_cases ht : s.talker = .finished
  · let s₁ : Agent := { s with talker := .joined, talkerJoins := s.talkerJoins + 1 }
    have hstop : stopTalker s = .ok true s₁ := by
      simp [stopTalker, ht, s₁]
    have ho : s.store.Owned none s.exception.isSome True := by
      have := h.owned
      rw [hpc] at this
      exact this.mono id fun _ => trivial
    obtain ⟨b, hdrain, hb, -, -⟩ := drainRequests_spec (s := s₁) _ ho rfl
    have hsame : b.requests = s.store.requests := by
      have := keeps_drainRequests_same s₁.store.incomingRequests s₁
      rwa [hdrain] at this
    obtain ⟨ret, d, hcleanup, -, -, hret⟩ := cleanupUIThreads_swept (s := { s₁ with store := b })
      h.wired
    cases ret with
    | false =>
      refine ⟨false, { s₁ with store := b, dialogs := d }, ?_, rfl, hret.trans ?_, fun _ => hsame⟩
      · unfold noexcept finish
        rw [bind_ok hstop]
        simp only [Bool.not_true, Bool.false_eq_true, if_false]
        rw [get_bind, bind_ok hdrain, bind_ok hcleanup]
        rfl
      · exact (and_iff_right ht).symm
    | true =>
      obtain ⟨b', hdelete, -⟩ := deleteRequests_spec (s := { s₁ with store := b, dialogs := d }) _
        hb rfl
      refine ⟨true, { s₁ with store := b', dialogs := d }, ?_, rfl, hret.trans ?_, by simp⟩
      · unfold noexcept finish
        rw [bind_ok hstop]
        simp only [Bool.not_true, Bool.false_eq_true, if_false]
        rw [get_bind, bind_ok hdrain, bind_ok hcleanup]
        simp only [Bool.not_true, Bool.false_eq_true, if_false]
        rw [get_bind, bind_ok hdelete]
        rfl
      · exact (and_iff_right ht).symm
  · refine ⟨false, s, ?_, rfl, by simp [ht], fun _ => rfl⟩
    have hnot : s.talker ≠ .joined := fun hj => by simpa [hpc, Pc.isFinal] using h.talker hj
    have hstop : stopTalker s = .ok false s := by
      cases hts : s.talker <;> simp_all [stopTalker]
    unfold noexcept finish
    rw [bind_ok hstop]
    rfl

/-- A pending request keeps its dialog from being done, and a dialog without one is dismissed. -/
theorem clean_iff (h : Served s) : Clean s ↔
    s.talker = .finished ∧ ∀ u ui, s.dialogs.objects.cell u = some ui → ui.Done := by
  refine ⟨fun hclean => ⟨hclean.talker, fun u ui hu => ⟨h.idle hu ?_, hclean.threads hu⟩⟩, ?_⟩
  · rw [AList.lookup, hclean.requests]
    rfl
  · rintro ⟨ht, hdone⟩
    refine ⟨ht, entries_eq_nil fun i => ?_, fun hu => (hdone _ _ hu).2⟩
    cases hl : s.store.requests.lookup i with
    | none => rfl
    | some p =>
      obtain ⟨u, ui, hu, -, hdis, -⟩ := h.pending hl
      have := (hdone u ui hu).1
      simp [hdis] at this

/-- The last step. -/
theorem mainStep_finish (h : Inv s) (hserved : Served s) (hpc : s.pc = .stopped) :
    ((mainStep L c s).pc = .finished ∧ Clean s ∨
        (mainStep L c s).pc = .exited ∧ ¬ Clean s ∧
          (mainStep L c s).store.requests = s.store.requests) ∧
      (mainStep L c s).exception = s.exception := by
  obtain ⟨ret, s', hrun, hexc, hret, hsame⟩ := finish_returns h hpc
  have hstep : mainStep L c s = { s' with pc := if ret then .finished else .exited } := by
    simp only [mainStep, hpc, call]
    rw [bind_ok hrun]
    rfl
  rw [hstep]
  refine ⟨?_, hexc⟩
  rw [clean_iff hserved, ← hret]
  cases ret with
  | true => exact Or.inl ⟨rfl, rfl⟩
  | false => exact Or.inr ⟨rfl, by simp, hsame rfl⟩

/-- **How the process ends.** When `run` is over, in any run, the process ends with the next step of
the main thread. It reports a failure if an exception has ended `run` and nothing is left to wait
for, and success in all other cases. -/
theorem exit_law (h : Reachable L Run.always s) (hpc : s.pc = .stopped) :
    ((mainStep L c s).pc = .finished ↔ Clean s) ∧ ((mainStep L c s).pc = .exited ↔ ¬ Clean s) ∧
      ((mainStep L c s).exitStatus = some .failure ↔ Clean s ∧ s.exception.isSome) ∧
      ((mainStep L c s).exitStatus = some .success ↔ ¬ (Clean s ∧ s.exception.isSome)) := by
  obtain ⟨hinv, hserved⟩ := (served h).resolve_left (by simp [hpc, Pc.isFinal])
  obtain ⟨⟨hpc', hclean⟩ | ⟨hpc', hclean, -⟩, hexc⟩ :=
    mainStep_finish (L := L) (c := c) hinv hserved hpc
  · cases hexc' : s.exception <;> simp [exitStatus, hpc', hclean, hexc, hexc']
  · simp [exitStatus, hpc', hclean]

/-- The data `-1` of a request make the vector of a string too long. The exception ends `run`, but
the thread of `CynaraTalker` waits for cynara, so the process reports success. -/
theorem exit_law_thrown : ∃ s, Reachable .lp64 Run.always s ∧ s.exception.isSome ∧
    (mainStep .lp64 ⟨0, 0, true⟩ s).exitStatus = some .success := by
  obtain ⟨s, hs, hst⟩ : ∃ s, Reachable .lp64 Run.always s ∧
      (s.pc, s.talker, s.exception.isSome) = (.stopped, .receiving, true) :=
    Run.Reachable.exists_of_exec
      [tick, .talker (.initialized true), .talker (.received .ACTION 1 [byte '-', byte '1']), tick,
        tick, tick, tick] (by decide +kernel)
  simp only [Prod.mk.injEq] at hst
  refine ⟨s, hs, hst.2.2, (exit_law hs hst.1).2.2.2.2 fun h => ?_⟩
  simpa [hst.2.1] using h.1.talker

/-- Only `finish` leads to the end. -/
theorem stopped_of_ended (h : Inv s) (hrun : s.pc.isFinal = false)
    (hpc : (mainStep L c s).pc = .finished ∨ (mainStep L c s).pc = .exited) : s.pc = .stopped := by
  have hs := mainStep_cases (L := L) (c := c) h hrun
  generalize mainStep L c s = s' at hs hpc
  cases hs with
  | exited _ hstopped | finished _ hstopped => exact hstopped
  | moves hm =>
    generalize s.pc = pc₀ at hm
    cases hm <;> simp at hpc
  | start | popped | closed | cancelled | duplicate | unknownCancel | thrown | startFailed
  | clashed | recorded | poppedResponse | answered | unmatched | cleaned => simp at hpc

/-- A run that ended by itself ended with `finish`. -/
theorem last_step (h : Reachable L Run.always s) (hpc : s.pc = .finished ∨ s.pc = .exited) :
    ∃ s₀ c, Reachable L Run.always s₀ ∧ s₀.pc = .stopped ∧ s = mainStep L c s₀ := by
  cases h with
  | start => simp [new] at hpc
  | @step s₀ _ l hr _ hs =>
    rcases sound hr with hcrash | hinv
    · simp [step_crashed hcrash] at hs
    · obtain ⟨hrun, ⟨c, rfl, -⟩ | ⟨-, hother⟩⟩ := step_cases hinv hs
      · obtain rfl : mainStep L c s₀ = s := by simpa [step, hrun] using hs
        exact ⟨s₀, c, hr, stopped_of_ended hinv hrun hpc, rfl⟩
      · have hsame : s.pc = s₀.pc := by cases hother <;> rfl
        rw [← hsame] at hrun
        rcases hpc with hpc | hpc <;> simp [hpc, Pc.isFinal] at hrun

theorem responses_append (h h' : List RequestAct) :
    responses (h ++ h') = responses h ++ responses h' :=
  List.filterMap_append

theorem responses_deletions {h : List RequestAct} (hd : ∀ a ∈ h, IsDeletion a) :
    responses h = [] :=
  List.filterMap_eq_nil_iff.2 fun a ha => by rw [hd a ha]

/-- **No answer is lost at the end.** When the process has ended by itself, exactly one response was
sent for every request that was recorded, but for those that `quick_exit` left in `m_requests`. -/
theorem ended_answered (h : Reachable L Run.always s) (hpc : s.pc = .finished ∨ s.pc = .exited)
    (hrecorded : .recorded ∈ s.store.story p) :
    (responses (s.store.story p)).length = 1 ∨
      s.pc = .exited ∧ responses (s.store.story p) = [] ∧
        ∃ i, s.store.requests.lookup i = some p := by
  obtain ⟨s₀, c, hr, hstopped, rfl⟩ := last_step h hpc
  obtain ⟨hinv, hserved⟩ := (served hr).resolve_left (by simp [hstopped, Pc.isFinal])
  obtain ⟨hends, -⟩ := mainStep_finish (L := L) (c := c) hinv hserved hstopped
  obtain ⟨new, hstory, hnew⟩ := story_of_written (mainStep_last L c hstopped) p
  -- the last step has added deletions only
  have hresponses : responses ((mainStep L c s₀).store.story p) = responses (s₀.store.story p) := by
    rw [hstory, responses_append, responses_deletions hnew, List.append_nil]
  rw [hstory, List.mem_append] at hrecorded
  replace hrecorded := hrecorded.resolve_right fun hmem => by simpa [IsDeletion] using hnew _ hmem
  rw [hresponses]
  cases hp : s₀.store.objects.cell p with
  | none =>
    left
    rcases hinv.owned.dead hp with hnil | ⟨r, hend⟩
    · simp [hnil] at hrecorded
    · exact hend.single_response (by simp [hstopped, Pc.isFinal]) hrecorded
  | some r =>
    obtain ⟨pl, hpl⟩ := hinv.owned.live.1 hp
    obtain rfl : pl = .pending := by
      cases pl with
      | pending => rfl
      | queued => simp [hpl.of_queued] at hrecorded
      | processing => simp [hpl.of_processing] at hrecorded
    have hl : s₀.store.requests.lookup r.id = some p := hinv.owned.pending.2 ⟨r, hpl, rfl⟩
    rcases hends with ⟨-, hclean⟩ | ⟨hexited, -, hsame⟩
    · rw [AList.lookup, hclean.requests] at hl
      simp at hl
    · exact Or.inr ⟨hexited, hpl.no_response, r.id, by rw [hsame, hl]⟩

/-- A SIGTERM comes while a dialog is open, after another question was answered. -/
theorem ended_answered_sigterm : ∃ s, Reachable .lp64 Run.always s ∧ s.pc = .exited ∧
    .recorded ∈ s.store.story 0 ∧ ((responses (s.store.story 0)).length = 1 ∨
      s.pc = .exited ∧ responses (s.store.story 0) = [] ∧
        ∃ i, s.store.requests.lookup i = some 0) := by
  obtain ⟨s, hs, hst⟩ : ∃ s, Reachable .lp64 Run.always s ∧
      (s.pc, decide (.recorded ∈ s.store.story 0)) = (.exited, true) :=
    Run.Reachable.exists_of_exec
      [tick, .talker (.initialized true), .talker (.received .ACTION 1 question), tick, tick, tick,
        tick, .post 0 0 4, .finish 0, tick, tick, tick, .talker (.received .ACTION 2 question),
        tick, tick, tick, tick, tick, .sigterm, tick, tick] (by decide +kernel)
  simp only [Prod.mk.injEq, decide_eq_true_eq] at hst
  exact ⟨s, hs, hst.1, hst.2, ended_answered hs (Or.inr hst.1) hst.2⟩

end AskUser.Agent
