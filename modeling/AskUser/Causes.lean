import AskUser.Attribution
import AskUser.JournalGrowth

/-!
# What responses and duplicates go back to

A response on an answer goes back to a dialog, whose thread has pushed the answer before the main
thread has popped it (`Given`); a response on a Cancel goes back to that Cancel (`IsCancel`); and a
duplicate to the request that was in `m_requests` under its id at the time (`CameSecond`).

`traced` says this of every state of every run, up to its end. Since nothing is lost that was noted
(`Grows`), a step has to account for what it adds only.
-/

namespace AskUser.Agent
open RequestType Objects

variable {L : Limits} {c : Choice} {s s' : Agent} {p k : RequestPtr} {q : Response} {i : RequestId}

/-- The thread of a dialog for the id has pushed the answer. -/
structure Posted (s : Agent) (q : Response) : Prop where
  started : ∃ p, .started q.id p ∈ s.dialogs.story q.postedBy
  posted : .posted q ∈ s.answers.story q.postedBy

/-- The thread of a dialog for the id has pushed the answer, and it was popped after that. -/
structure Given (s : Agent) (q : Response) : Prop where
  started : ∃ p, .started q.id p ∈ s.dialogs.story q.postedBy
  popped : [.posted q, .popped q].Sublist (s.answers.story q.postedBy)

/-- The request at `k` is a Cancel for the id `i`, and it was popped. -/
def IsCancel (s : Agent) (k : RequestPtr) (i : RequestId) : Prop :=
  ∃ r, .handed r ∈ s.store.story k ∧ r.type = RT_Cancel ∧ r.id = i ∧ .popped ∈ s.store.story k

/-- The id `i` was taken when the request at `p` was processed: the one at `q`, with this id, had
been recorded, and nothing had happened to it since. -/
def CameSecond (s : Agent) (p : RequestPtr) (i : RequestId) : Prop :=
  ∃ q r before after, s.store.journal.entries = before ++ (p, .duplicate q) :: after ∧
    (⟨before⟩ : Journal RequestPtr RequestAct).story q = [.handed r, .popped, .recorded] ∧ r.id = i

/-! ### What was noted stays -/

/-- Nothing is lost that was noted. -/
structure Grows (s s' : Agent) : Prop where
  requests : s.store.journal.entries <+: s'.store.journal.entries
  dialogs : ∀ u, s.dialogs.story u <+: s'.dialogs.story u
  answers : ∀ u, s.answers.story u <+: s'.answers.story u

namespace Grows

theorem story (h : Grows s s') {a : RequestAct} (ha : a ∈ s.store.story p) :
    a ∈ s'.store.story p :=
  ((h.requests.filter _).map _).subset ha

theorem posted (h : Grows s s') (hq : s.Posted q) : s'.Posted q := by
  obtain ⟨⟨p, hp⟩, hposted⟩ := hq
  exact ⟨⟨p, (h.dialogs _).subset hp⟩, (h.answers _).subset hposted⟩

theorem given (h : Grows s s') (hq : s.Given q) : s'.Given q := by
  obtain ⟨⟨p, hp⟩, hpopped⟩ := hq
  exact ⟨⟨p, (h.dialogs _).subset hp⟩, hpopped.trans (h.answers _).sublist⟩

theorem isCancel (h : Grows s s') (hk : s.IsCancel k i) : s'.IsCancel k i := by
  obtain ⟨r, hr, htype, hid, hpopped⟩ := hk
  exact ⟨r, h.story hr, htype, hid, h.story hpopped⟩

theorem cameSecond (h : Grows s s') (hp : s.CameSecond p i) : s'.CameSecond p i := by
  obtain ⟨new, hnew⟩ := h.requests
  obtain ⟨q, r, before, after, hentries, hrest⟩ := hp
  refine ⟨q, r, before, after ++ new, ?_, hrest⟩
  rw [← hnew, hentries, List.append_assoc, List.cons_append]

end Grows

/-- What a step of the main thread does to the answers: it pops one, or leaves them alone. -/
theorem MainStep.pops (hs : MainStep L c s s') (hrun : s'.pc.isFinal = false) :
    (s'.answers = s.answers ∧ s'.incomingResponses = s.incomingResponses ∧
        ∀ q, s'.pc ≠ .response q) ∨
      ∃ q, s.incomingResponses = q :: s'.incomingResponses ∧ s'.pc = .response q ∧
        s'.answers = s.answers.note q.postedBy (.popped q) := by
  cases hs with
  | clashed | exited | finished => simp [Pc.isFinal] at hrun
  | poppedResponse _ hq => exact Or.inr ⟨_, hq, rfl, rfl⟩
  | moves hm =>
    refine Or.inl ⟨rfl, rfl, fun q => ?_⟩
    generalize s.pc = pc at hm
    cases hm <;> simp
  | start | popped | closed | cancelled | duplicate | unknownCancel | thrown | startFailed
  | recorded | answered | unmatched | cleaned =>
    exact Or.inl ⟨rfl, rfl, by simp⟩

theorem mainStep_grows (hs : MainStep L c s (mainStep L c s))
    (hrun : (mainStep L c s).pc.isFinal = false) : Grows s (mainStep L c s) where
  requests := by
    obtain ⟨new, hentries, -⟩ := mainStep_written L c s
    exact ⟨new, hentries.symm⟩
  dialogs := hs.dialog_story
  answers u := by
    obtain ⟨hsame, -⟩ | ⟨q, -, -, hnote⟩ := hs.pops hrun
    · rw [hsame]
    · rw [hnote, Journal.story_note]
      split_ifs
      · exact List.prefix_append _ _
      · exact List.prefix_rfl

theorem OtherStep.grows (hs : OtherStep s s') : Grows s s' where
  requests := by
    cases hs with
    | handed => exact List.prefix_append _ _
    | talker | posted | threw | threadFinished | sigterm => exact List.prefix_rfl
  dialogs u := by rw [hs.dialog_story]
  answers u := by
    cases hs with
    | posted | threw =>
      simp only [Journal.story_note]
      split_ifs
      · exact List.prefix_append _ _
      · exact List.prefix_rfl
    | talker | handed | threadFinished | sigterm => exact List.prefix_rfl

/-! ### Tracing -/

/-- What the answers, the responses and the duplicates go back to. -/
structure Traced (s : Agent) : Prop where
  queued : ∀ q ∈ s.incomingResponses, s.Posted q
  processing : ∀ q, s.pc = .response q → s.Given q
  answer : ∀ p x q, .sent x ∈ s.store.story p → x.cause = .response q → s.Given q
  cancel : ∀ p x k, .sent x ∈ s.store.story p → x.cause = .cancel k → s.IsCancel k x.requestId
  duplicate : ∀ p q, .duplicate q ∈ s.store.story p →
    ∃ r, .handed r ∈ s.store.story p ∧ s.CameSecond p r.id

theorem traced_new : Traced new where
  queued := by simp [new]
  processing := by simp [new]
  answer _ _ _ hx := by simp [new, Requests.story] at hx
  cancel _ _ _ hx := by simp [new, Requests.story] at hx
  duplicate _ _ hd := by simp [new, Requests.story] at hd

/-- A step that finds a duplicate. -/
theorem MainStep.duplicates {q : RequestPtr} (hs : MainStep L c s s') (hrun : s'.pc.isFinal = false)
    (hd : .duplicate q ∈ s'.store.story p) : .duplicate q ∈ s.store.story p ∨
      ∃ r, s.pc = .request p ∧ s.store.objects.cell p = some r ∧
        s.store.requests.lookup r.id = some q ∧
        s'.store.journal.entries =
          s.store.journal.entries ++ [(p, .duplicate q), (p, .deleted)] := by
  cases hs with
  | clashed | exited | finished => simp [Pc.isFinal] at hrun
  | start | moves | poppedResponse | unmatched | cleaned => exact Or.inl hd
  | recorded _ _ _ hl =>
    exact Or.inl (by simpa only [mem_story_insert hl, reduceCtorEq, and_false, or_false] using hd)
  | @duplicate p' q' r hpc hp _ hl =>
    simp only [mem_story_free, mem_story_note, reduceCtorEq, and_false, or_false,
      RequestAct.duplicate.injEq] at hd
    rcases hd with hd | ⟨rfl, rfl⟩
    · exact Or.inl hd
    · exact Or.inr ⟨r, hpc, hp, hl, List.append_assoc _ _ _⟩
  | popped =>
    rcases mem_story_note.1 hd with hd | ⟨-, hd⟩
    · exact Or.inl hd
    · simp at hd
  | closed | unknownCancel | thrown | cancelled | startFailed | answered =>
    exact Or.inl (by
      simpa only [mem_story_free, mem_story_note, Requests.story_erase, reduceCtorEq, and_false,
        or_false] using hd)

/-- **A step of the main thread** keeps the traces. -/
theorem mainStep_traced (h : Inv s) (ht : Traced s) (hs : MainStep L c s (mainStep L c s))
    (hrun : (mainStep L c s).pc.isFinal = false) : Traced (mainStep L c s) := by
  have hgrows := mainStep_grows hs hrun
  generalize mainStep L c s = s' at *
  have hpops := hs.pops hrun
  -- the request in hand was popped
  have hhand : ∀ {p r}, s.pc = .request p → s.store.objects.cell p = some r →
      s.store.story p = [.handed r, .popped] := fun {p r} hpc hp => by
    obtain ⟨r', hr'⟩ := h.owned.processing.1 (by rw [hpc]; rfl : s.pc.current = some p)
    obtain rfl : r' = r := Option.some.inj ((h.owned.live.2 ⟨_, hr'⟩).symm.trans hp)
    exact hr'.of_processing
  refine
    { queued := fun q hq => ?_
      processing := fun q hpc => ?_
      answer := fun p x q hx hcause => ?_
      cancel := fun p x k hx hcause => ?_
      duplicate := fun p q hd => ?_ }
  · refine hgrows.posted (ht.queued q ?_)
    obtain ⟨-, hsame, -⟩ | ⟨q', hqueue, -⟩ := hpops
    · rwa [← hsame]
    · rw [hqueue]
      exact List.mem_cons_of_mem _ hq
  · obtain ⟨-, -, hno⟩ | ⟨q', hqueue, hpc', hnote⟩ := hpops
    · exact absurd hpc (hno q)
    · obtain rfl : q' = q := Pc.response.inj (hpc'.symm.trans hpc)
      have hposted := ht.queued q' (hqueue ▸ List.mem_cons_self)
      refine ⟨(hgrows.posted hposted).started, ?_⟩
      rw [hnote, Journal.story_note, if_pos rfl]
      exact (List.singleton_sublist.2 hposted.posted).append (List.Sublist.refl [_])
  · rcases hs.sent hx with hx | hstart | ⟨q', hpc, -, hq'⟩ | ⟨_, _, -, -, -, -, hcancel⟩
    · exact hgrows.given (ht.answer p x q hx hcause)
    · exact absurd (hstart.symm.trans hcause) (by simp)
    · obtain rfl : q' = q := Cause.response.inj (hq'.symm.trans hcause)
      exact hgrows.given (ht.processing q' hpc)
    · exact absurd (hcancel.symm.trans hcause) (by simp)
  · rcases hs.sent hx with hx | hstart | ⟨q, -, -, hq⟩ | ⟨k', r, hk, hcell, htype, hid, hcause'⟩
    · exact hgrows.isCancel (ht.cancel p x k hx hcause)
    · exact absurd (hstart.symm.trans hcause) (by simp)
    · exact absurd (hq.symm.trans hcause) (by simp)
    · obtain rfl : k' = k := Cause.cancel.inj (hcause'.symm.trans hcause)
      have hst := hhand hk hcell
      exact hgrows.isCancel ⟨r, by simp [hst], htype, hid.symm, by simp [hst]⟩
  · rcases hs.duplicates hrun hd with hd | ⟨r, hpc, hp, hl, hentries⟩
    · obtain ⟨r, hr, hsecond⟩ := ht.duplicate p q hd
      exact ⟨r, hgrows.story hr, hgrows.cameSecond hsecond⟩
    · refine ⟨r, hgrows.story (by simp [hhand hpc hp]), ?_⟩
      obtain ⟨rq, hpending, hid⟩ := h.owned.pending.1 hl
      refine ⟨q, rq, s.store.journal.entries, [(p, .deleted)], hentries, ?_, hid⟩
      generalize hst : s.store.story q = st at hpending
      cases hpending
      exact hst

theorem OtherStep.traced (h : Inv s) (ht : Traced s) (hs : OtherStep s s') : Traced s' := by
  have hgrows := hs.grows
  have hsent : ∀ {p x}, .sent x ∈ s'.store.story p → .sent x ∈ s.store.story p := hs.sent
  refine
    { queued := fun q hq => ?_
      processing := fun q hpc => ?_
      answer := fun p x q hx hcause => hgrows.given (ht.answer p x q (hsent hx) hcause)
      cancel := fun p x k hx hcause => hgrows.isCancel (ht.cancel p x k (hsent hx) hcause)
      duplicate := fun p q hd => ?_ }
  · cases hs with
    | @posted u ui type hu =>
      rcases List.mem_append.1 hq with hq | hq
      · exact hgrows.posted (ht.queued q hq)
      · obtain rfl := List.mem_singleton.1 hq
        obtain ⟨p, hst⟩ := h.wired.live hu
        refine ⟨⟨p, ?_⟩, by simp⟩
        show _ ∈ s.dialogs.story u
        simp [hst]
    | talker | handed | threw | threadFinished | sigterm => exact hgrows.posted (ht.queued q hq)
  · refine hgrows.given (ht.processing q ?_)
    cases hs <;> exact hpc
  · have hd' : .duplicate q ∈ s.store.story p := by
      cases hs with
      | handed r => simpa only [mem_story_hand, reduceCtorEq, and_false, or_false] using hd
      | talker | posted | threw | threadFinished | sigterm => exact hd
    obtain ⟨r, hr, hsecond⟩ := ht.duplicate p q hd'
    exact ⟨r, hgrows.story hr, hgrows.cameSecond hsecond⟩

/-- **Everything is traced**, up to the end of the run. -/
theorem traced {cond : Label → Agent → Prop} (h : Reachable L cond s) :
    s.pc.isFinal = true ∨ Inv s ∧ Traced s := by
  refine h.invariant (P := fun s => s.pc.isFinal = true ∨ Inv s ∧ Traced s)
    (Or.inr ⟨inv_new, traced_new⟩) fun l s s' ih _ hs => ?_
  rcases ih with hfinal | ⟨hinv, ht⟩
  · simp [step, hfinal] at hs
  · have hinv' := step_inv hinv hs
    obtain ⟨hpc, ⟨c, rfl, hmain⟩ | ⟨-, hother⟩⟩ := step_cases hinv hs
    · obtain rfl : mainStep L c s = s' := by simpa [step, hpc] using hs
      cases hrun : (mainStep L c s).pc.isFinal with
      | true => exact Or.inl rfl
      | false =>
        refine Or.inr ⟨hinv'.resolve_left fun hcrash => ?_, mainStep_traced hinv ht hmain hrun⟩
        simp [hcrash, Pc.isFinal] at hrun
    · exact Or.inr ⟨hother.inv hinv hpc, hother.traced hinv ht⟩

end AskUser.Agent
