import AskUser.Causes

/-!
# What becomes of the requests

Two theorems about every state of every run, read off the invariant.

* `ownership`: a request that is not deleted is in exactly one place, one that is deleted is in
  none, nothing is deleted twice or used after that, and when `finish` has run to its end
  everything is deleted and joined;
* `one_response`: an Action that was popped met exactly one of four fates (`Fate`), two of them
  with exactly one response, and there are no other responses.
-/

namespace AskUser.Agent
open RequestType Objects

variable {L : Limits} {s : Agent} {p : RequestPtr} {r : Request}

/-! ### Stories -/

theorem Alive.first {pl : Place} {h : List RequestAct} (ha : Alive r pl h) {r' : Request}
    (hr : .handed r' ∈ h) : r' = r := by
  cases ha <;> simpa using hr

theorem Ended.first {exc shut : Prop} {h : List RequestAct} (he : Ended exc shut r h) {r' : Request}
    (hr : .handed r' ∈ h) : r' = r := by
  cases he <;> simpa using hr

theorem Alive.not_deleted {pl : Place} {h : List RequestAct} (ha : Alive r pl h) :
    .deleted ∉ h := by
  cases ha <;> simp

theorem Ended.deleted_once {exc shut : Prop} {h : List RequestAct} (he : Ended exc shut r h) :
    h.count .deleted = 1 := by
  cases he <;> simp

theorem Alive.no_response {pl : Place} {h : List RequestAct} (ha : Alive r pl h) :
    responses h = [] := by
  cases ha <;> rfl

/-- A request that was handed in is live, or its story is complete. -/
theorem Inv.handed (h : Inv s) (hr : .handed r ∈ s.store.story p) :
    (s.store.objects.cell p = some r ∧ ∃ pl, Alive r pl (s.store.story p)) ∨
      (s.store.objects.cell p = none ∧
        Ended s.exception.isSome s.pc.isFinal r (s.store.story p)) := by
  cases hp : s.store.objects.cell p with
  | some r' =>
    obtain ⟨pl, hpl⟩ := h.owned.live.1 hp
    obtain rfl := hpl.first hr
    exact Or.inl ⟨rfl, pl, hpl⟩
  | none =>
    rcases h.owned.dead hp with hnil | ⟨r', hend⟩
    · simp [hnil] at hr
    · obtain rfl := hend.first hr
      exact Or.inr ⟨rfl, hend⟩

/-- A story is about one request. -/
theorem Inv.handed_unique (h : Inv s) {r' : Request} (hr : .handed r ∈ s.store.story p)
    (hr' : .handed r' ∈ s.store.story p) : r = r' := by
  rcases h.handed hr with ⟨-, pl, hpl⟩ | ⟨-, hend⟩
  · exact (hpl.first hr').symm
  · exact (hend.first hr').symm

/-! ### Ownership -/

/-- The request at `p` is in exactly one place: once in the queue, or in the hands of the call that
processes it, or in `m_requests` under its own id. -/
def InOnePlace (s : Agent) (p : RequestPtr) (r : Request) : Prop :=
  s.store.incomingRequests.count p + (if s.pc = .request p then 1 else 0) +
      (if s.store.requests.lookup r.id = some p then 1 else 0) = 1 ∧
    ∀ i, s.store.requests.lookup i = some p → i = r.id

/-- No container and no call holds the request at `p`. -/
def InNoPlace (s : Agent) (p : RequestPtr) : Prop :=
  p ∉ s.store.incomingRequests ∧ s.pc ≠ .request p ∧ ∀ i, s.store.requests.lookup i ≠ some p

theorem pc_request_iff : s.pc = .request p ↔ s.pc.current = some p := by
  cases s.pc <;> simp [Pc.current]

theorem Inv.in_one_place (h : Inv s) {pl : Place} (hpl : Alive r pl (s.store.story p)) :
    InOnePlace s p r := by
  have hplace : ∀ {r' pl'}, Alive r' pl' (s.store.story p) ↔ r' = r ∧ pl' = pl := fun {r' pl'} =>
    ⟨fun hA => hA.place_unique hpl, by rintro ⟨rfl, rfl⟩; exact hpl⟩
  have hqueued : p ∈ s.store.incomingRequests ↔ pl = .queued := by
    simp [h.owned.queued, hplace, eq_comm]
  have hcurrent : s.pc = .request p ↔ pl = .processing := by
    simp [pc_request_iff, h.owned.processing, hplace, eq_comm]
  have hpending : ∀ i, s.store.requests.lookup i = some p ↔ pl = .pending ∧ r.id = i := by
    intro i
    simp [h.owned.pending, hplace, eq_comm]
  have hcount : s.store.incomingRequests.count p = if pl = .queued then 1 else 0 := by
    rw [List.Nodup.count h.owned.nodup]
    simp only [hqueued]
  -- each of the three summands is one in its own place and zero elsewhere
  refine ⟨?_, fun i hi => ((hpending i).1 hi).2.symm⟩
  simp only [hcount, hcurrent, hpending]
  cases pl <;> rfl

theorem Inv.in_no_place (h : Inv s) {exc shut : Prop} (hend : Ended exc shut r (s.store.story p)) :
    InNoPlace s p := by
  refine ⟨fun hq => ?_, fun hc => ?_, fun i hi => ?_⟩
  · obtain ⟨r', hr'⟩ := h.owned.queued.1 hq
    exact hr'.not_ended hend
  · obtain ⟨r', hr'⟩ := h.owned.processing.1 (pc_request_iff.1 hc)
    exact hr'.not_ended hend
  · obtain ⟨r', hr', -⟩ := h.owned.pending.1 hi
    exact hr'.not_ended hend

theorem entries_eq_nil {β : Type} {m : AList fun _ : RequestId => β}
    (h : ∀ i, m.lookup i = none) : m.entries = [] := by
  cases he : m.entries with
  | nil => rfl
  | cons e es =>
    have := AList.mem_lookup_iff.2 (he ▸ List.mem_cons_self : e ∈ m.entries)
    simp [h] at this

/-- At the end of `finish` everything is deleted and joined. -/
structure CleanlyFinished (s : Agent) : Prop where
  deleted : ∀ p r, .handed r ∈ s.store.story p → (s.store.story p).count .deleted = 1
  incomingRequests : s.store.incomingRequests = []
  requests : s.store.requests.entries = []
  UIs : s.dialogs.UIs.entries = []
  talker : s.talker = .joined ∧ s.talkerJoins = 1
  joined : ∀ u i p, .started i p ∈ s.dialogs.story u → (s.dialogs.story u).count .joined = 1

/-- A dialog that was started and is in no map was joined once. -/
theorem Inv.joined_once (h : Inv s) (hUIs : ∀ i, s.dialogs.UIs.lookup i = none) {u : UIPtr}
    {i : RequestId} {p : RequestPtr} (hu : .started i p ∈ s.dialogs.story u) :
    (s.dialogs.story u).count .joined = 1 := by
  cases hcell : s.dialogs.objects.cell u with
  | some ui =>
    have := h.wired.lookup_unique hcell
    simp [hUIs] at this
  | none =>
    rcases h.wired.gone hcell with hst | hst | ⟨j, q, hst⟩
    · simp [hst] at hu
    · simp [hst] at hu
    · simp [hst]

theorem Inv.cleanlyFinished (h : Inv s) (hpc : s.pc = .finished) : CleanlyFinished s := by
  obtain ⟨htalker, hqueue, hrequests, hUIs⟩ := h.finished hpc
  refine ⟨fun p r hr => ?_, hqueue, entries_eq_nil hrequests, entries_eq_nil hUIs,
    ⟨htalker, by rw [h.joins, if_pos htalker]⟩, fun u i p hu => h.joined_once hUIs hu⟩
  rcases h.handed hr with ⟨-, pl, hpl⟩ | ⟨-, hend⟩
  · obtain ⟨hone, -⟩ := h.in_one_place hpl
    simp [hqueue, hpc, hrequests] at hone
  · exact hend.deleted_once

/-- **Ownership and clean shutdown.** -/
theorem ownership (h : Reachable L Run.always s) :
    (∀ a, s.pc = .crashed a → a = .terminate) ∧
      ((∀ a, s.pc ≠ .crashed a) →
        (∀ p r, .handed r ∈ s.store.story p →
          (.deleted ∉ s.store.story p → s.store.objects.cell p = some r ∧ InOnePlace s p r) ∧
          (.deleted ∈ s.store.story p → s.store.objects.cell p = none ∧ InNoPlace s p ∧
            (s.store.story p).count .deleted = 1)) ∧
        (s.pc = .finished → CleanlyFinished s)) := by
  rcases sound h with hcrash | hinv
  · refine ⟨fun a ha => ?_, fun hno => absurd hcrash (hno _)⟩
    rw [hcrash, Pc.crashed.injEq] at ha
    exact ha.symm
  · refine ⟨fun a ha => absurd ha (hinv.running a), fun _ =>
      ⟨fun p r hr => ⟨fun hdel => ?_, fun hdel => ?_⟩, hinv.cleanlyFinished⟩⟩
    · rcases hinv.handed hr with ⟨hp, pl, hpl⟩ | ⟨-, hend⟩
      · exact ⟨hp, hinv.in_one_place hpl⟩
      · exact absurd (List.count_pos_iff.1 (by rw [hend.deleted_once]; exact Nat.one_pos)) hdel
    · rcases hinv.handed hr with ⟨-, pl, hpl⟩ | ⟨hp, hend⟩
      · exact absurd hdel hpl.not_deleted
      · exact ⟨hp, hinv.in_no_place hend, hend.deleted_once⟩

/-- A question is answered, then cynara goes away, and the agent finishes. -/
theorem ownership_finished : ∃ s, Reachable .lp64 Run.always s ∧ s.pc = .finished ∧
    .handed ⟨RT_Action, 1, question⟩ ∈ s.store.story 0 ∧ CleanlyFinished s := by
  obtain ⟨s, hs, hst⟩ : ∃ s, Reachable .lp64 Run.always s ∧
      (s.pc, (s.store.story 0).head?) = (.finished, some (.handed ⟨RT_Action, 1, question⟩)) :=
    Run.Reachable.exists_of_exec
      [tick, .talker (.initialized true), .talker (.received .ACTION 1 question), tick, tick, tick,
        tick, .post 0 0 4, .finish 0, tick, tick, tick, tick, .talker .receiveFailed,
        .talker .closed, tick, tick, tick, tick, tick, tick] (by decide +kernel)
  rw [Prod.mk.injEq] at hst
  have hno : ∀ a, s.pc ≠ .crashed a := by simp [hst.1]
  exact ⟨s, hs, hst.1, List.mem_of_head? hst.2, ((ownership hs).2 hno).2 hst.1⟩

/-! ### Responses -/

/-- What can have become of an Action that was popped. -/
inductive Fate
  | duplicate
  | uiFailed
  | pending
  | answered
  deriving DecidableEq

/-- The fates, with the responses that were sent about the request. -/
def HasFate (s : Agent) (p : RequestPtr) (r : Request) : Fate → Prop
  | .duplicate => s.CameSecond p r.id ∧
      (∀ i, s.store.requests.lookup i ≠ some p) ∧ responses (s.store.story p) = []
  | .uiFailed => .startFailed ∈ s.store.story p ∧ (∀ i, s.store.requests.lookup i ≠ some p) ∧
      responses (s.store.story p) = [startFailure r]
  | .pending => s.store.requests.lookup r.id = some p ∧ responses (s.store.story p) = []
  | .answered => .recorded ∈ s.store.story p ∧ (∀ i, s.store.requests.lookup i ≠ some p) ∧
      ((∃ q, s.Given q ∧ q.id = r.id ∧ responses (s.store.story p) = [answer r q]) ∨
        ∃ c, s.IsCancel c r.id ∧ responses (s.store.story p) = [cancellation r c])

/-- An Action that was popped, and is not just being processed, has one fate, by its story. -/
theorem Inv.fate (h : Inv s) (ht : Traced s) (hexc : s.exception = none)
    (hpc : s.pc.isFinal = false) (hr : .handed r ∈ s.store.story p) (haction : r.type = RT_Action)
    (hpopped : .popped ∈ s.store.story p) (hp : s.pc ≠ .request p) :
    ∃! f, HasFate s p r f := by
  rcases h.handed hr with ⟨-, pl, hpl⟩ | ⟨-, hend⟩
  · have hplace := hpl
    generalize hst : s.store.story p = st at hpl hpopped
    cases hpl with
    | queued => simp at hpopped
    | processing => exact absurd (pc_request_iff.2 (h.owned.processing.2 ⟨r, hplace⟩)) hp
    | pending ht =>
      have hl : s.store.requests.lookup r.id = some p := h.owned.pending.2 ⟨r, hplace, rfl⟩
      refine ⟨.pending, ⟨hl, by simp [hst, responses]⟩, fun f hf => ?_⟩
      cases f with
      | pending => rfl
      | duplicate | uiFailed | answered => exact absurd hl (hf.2.1 r.id)
  · -- the story is complete, and each complete story of an Action tells its fate
    obtain ⟨-, -, hno⟩ := h.in_no_place hend
    generalize hst : s.store.story p = st at hend hpopped
    have hne : ¬ (s.exception.isSome = true) := by simp [hexc]
    cases hend with
    | closed ht | cancel ht => simp [ht] at haction
    | duplicate q =>
      -- the id was taken by the request that the note names
      obtain ⟨r', hr', hsecond⟩ := ht.duplicate p q (by simp [hst])
      obtain rfl := h.handed_unique hr hr'
      refine ⟨.duplicate, ⟨hsecond, hno, by simp [hst, responses]⟩, fun f hf => ?_⟩
      cases f with
      | duplicate => rfl
      | pending => exact absurd hf.1 (hno r.id)
      | uiFailed | answered => simp [HasFate, hst] at hf
    | startFailed =>
      refine ⟨.uiFailed, ⟨by simp [hst], hno, by simp [hst, responses]⟩, fun f hf => ?_⟩
      cases f with
      | uiFailed => rfl
      | pending => exact absurd hf.1 (hno r.id)
      | duplicate | answered => simp [HasFate, hst, responses] at hf
    | answered q _ hq =>
      have hgiven := ht.answer p (answer r q) q (by simp [hst]) rfl
      refine ⟨.answered, ⟨by simp [hst], hno, Or.inl ⟨q, hgiven, hq, by simp [hst, responses]⟩⟩,
        fun f hf => ?_⟩
      cases f with
      | answered => rfl
      | pending => exact absurd hf.1 (hno r.id)
      | duplicate | uiFailed => simp [HasFate, hst, responses] at hf
    | cancelled c =>
      have hcancel := ht.cancel p (cancellation r c) c (by simp [hst]) rfl
      refine ⟨.answered, ⟨by simp [hst], hno, Or.inr ⟨c, hcancel, by simp [hst, responses]⟩⟩,
        fun f hf => ?_⟩
      cases f with
      | answered => rfl
      | pending => exact absurd hf.1 (hno r.id)
      | duplicate | uiFailed => simp [HasFate, hst, responses] at hf
    | thrown e hexc' => exact absurd hexc' hne
    | drained hshut => simp [hpc] at hshut
    | shutDown hshut => simp [hpc] at hshut

theorem mem_responses {x : Sent} {h : List RequestAct} : x ∈ responses h ↔ .sent x ∈ h := by
  simp only [responses, List.mem_filterMap]
  refine ⟨?_, fun hx => ⟨_, hx, rfl⟩⟩
  rintro ⟨a, ha, hax⟩
  cases a <;> simp_all

/-- A response was sent about an Action that was popped, and no other. -/
theorem Inv.response (h : Inv s) (htraced : Traced s) {x : Sent}
    (hx : .sent x ∈ s.store.story p) :
    ∃ r, .handed r ∈ s.store.story p ∧ r.type = RT_Action ∧ .popped ∈ s.store.story p ∧
      responses (s.store.story p) = [x] ∧ (HasFate s p r .uiFailed ∨ HasFate s p r .answered) := by
  cases hp : s.store.objects.cell p with
  | some r =>
    obtain ⟨pl, hpl⟩ := h.owned.live.1 hp
    rw [← mem_responses, hpl.no_response] at hx
    exact absurd hx (by simp)
  | none =>
    rcases h.owned.dead hp with hnil | ⟨r, hend⟩
    · simp [hnil] at hx
    · obtain ⟨-, -, hno⟩ := h.in_no_place hend
      have hsent := hx
      generalize hst : s.store.story p = st at hend hx
      cases hend with
      | startFailed ht =>
        obtain rfl : x = startFailure r := by simpa using hx
        exact ⟨r, by simp, ht, by simp, rfl, Or.inl ⟨by simp [hst], hno, by simp [hst, responses]⟩⟩
      | answered q ht hq =>
        obtain rfl : x = answer r q := by simpa using hx
        exact ⟨r, by simp, ht, by simp, rfl,
          Or.inr ⟨by simp [hst], hno, Or.inl ⟨q, htraced.answer p _ q hsent rfl, hq,
            by simp [hst, responses]⟩⟩⟩
      | cancelled c ht =>
        obtain rfl : x = cancellation r c := by simpa using hx
        exact ⟨r, by simp, ht, by simp, rfl,
          Or.inr ⟨by simp [hst], hno, Or.inr ⟨c, htraced.cancel p _ c hsent rfl,
            by simp [hst, responses]⟩⟩⟩
      | closed | cancel | duplicate | thrown | drained | shutDown => simp at hx

/-- **Exactly one response.** While no exception was thrown, and up to the end of `run`, an Action
that was popped and is not just being processed has exactly one fate, and every response that was
sent is the one that a fate speaks of. -/
theorem one_response (h : Reachable L Run.always s) (hexc : s.exception = none)
    (hpc : s.pc.isFinal = false) :
    (∀ p r, .handed r ∈ s.store.story p → r.type = RT_Action → .popped ∈ s.store.story p →
      s.pc ≠ .request p → ∃! f, HasFate s p r f) ∧
    ∀ p x, .sent x ∈ s.store.story p → ∃ r, .handed r ∈ s.store.story p ∧ r.type = RT_Action ∧
      .popped ∈ s.store.story p ∧ responses (s.store.story p) = [x] ∧
      (HasFate s p r .uiFailed ∨ HasFate s p r .answered) := by
  obtain ⟨hinv, ht⟩ := (traced h).resolve_left (by simp [hpc])
  exact ⟨fun p r hr haction hpopped hp => hinv.fate ht hexc hpc hr haction hpopped hp,
    fun p x hx => hinv.response ht hx⟩

/-- The second of two Actions with one id is a duplicate; then the first one is cancelled. -/
theorem one_response_duplicate_cancel : ∃ s, Reachable .lp64 Run.always s ∧
    (∃! f, HasFate s 0 ⟨RT_Action, 1, question⟩ f) ∧
    ∃! f, HasFate s 1 ⟨RT_Action, 1, question⟩ f := by
  obtain ⟨s, hs, hst⟩ : ∃ s, Reachable .lp64 Run.always s ∧
      (s.pc, s.exception, s.store.story 0, s.store.story 1) = (.responses, none,
        [.handed ⟨RT_Action, 1, question⟩, .popped, .recorded, .deleted,
          .sent ⟨RT_Cancel, 1, [], .cancel 2⟩],
        [.handed ⟨RT_Action, 1, question⟩, .popped, .duplicate 0, .deleted]) :=
    Run.Reachable.exists_of_exec
      [tick, .talker (.initialized true), .talker (.received .ACTION 1 question),
        .talker (.received .ACTION 1 question), .talker (.received .CANCEL 1 []), tick, tick, tick,
        tick, tick, tick, tick, tick, tick, tick, tick, tick] (by decide +kernel)
  simp only [Prod.mk.injEq] at hst
  obtain ⟨hpc, hexc, h0, h1⟩ := hst
  have hfate := (one_response hs hexc (by rw [hpc]; rfl)).1
  refine ⟨s, hs, hfate 0 _ ?_ rfl ?_ ?_, hfate 1 _ ?_ rfl ?_ ?_⟩ <;> simp [h0, h1, hpc]

end AskUser.Agent
