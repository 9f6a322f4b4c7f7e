import AskUser.AgentSteps

/-!
# Who owns a request

A `Request` object lives from `requestHandler` to its `delete`, and meanwhile it is in the hands of
the queue, of the call that processes it, or of `m_requests`. Its story so far tells which
(`Alive`), and when the object is gone its story is one of a few complete ones (`Ended`).

`Owned` says that the containers agree with the stories, in both directions. Four changes are all
that the agent ever makes: a new object is handed in (`Owned.hand`), popped (`Owned.pop`), recorded
(`Owned.record`), or disposed of (`Owned.dispose`).
-/

namespace AskUser.Agent
open RequestType Objects

namespace Requests

variable {b : Requests} {id : RequestId} {p q : RequestPtr} {a : RequestAct} {r : Request}

@[simp] theorem story_note : (b.note p a).story q =
    if q = p then b.story q ++ [a] else b.story q := by
  simp [note, story]

@[simp] theorem story_free : (b.free p).story q =
    if q = p then b.story q ++ [.deleted] else b.story q := by
  simp [free, story]

@[simp] theorem story_erase : (b.erase id).story q = b.story q := rfl

@[simp] theorem story_hand : (b.hand r).story q =
    if q = b.objects.size then b.story q ++ [.handed r] else b.story q := by
  simp [hand, story]

@[simp] theorem cell_note : (b.note p a).objects.cell q = b.objects.cell q := rfl

@[simp] theorem cell_free : (b.free p).objects.cell q =
    if q = p then none else b.objects.cell q := rfl

@[simp] theorem cell_erase : (b.erase id).objects.cell q = b.objects.cell q := rfl

/-- `insert` where there is no entry. -/
theorem insert_eq (h : b.requests.lookup id = none) : b.insert id p =
    { b with requests := b.requests.insert id p, journal := b.journal.note p .recorded } :=
  if_neg (AList.lookup_eq_none.1 h)

theorem story_insert (h : b.requests.lookup id = none) : (b.insert id p).story q =
    if q = p then b.story q ++ [.recorded] else b.story q := by
  simp [insert_eq h, story]

theorem lookup_insert (h : b.requests.lookup id = none) (i : RequestId) :
    (b.insert id p).requests.lookup i = if i = id then some p else b.requests.lookup i := by
  rw [insert_eq h]
  by_cases hi : i = id
  · rw [if_pos hi, hi]
    exact AList.lookup_insert _
  · rw [if_neg hi]
    exact AList.lookup_insert_ne hi

end Requests

/-- Who holds a live request. -/
inductive Place
  | queued
  | processing
  | pending
  deriving DecidableEq

/-- The stories of a live request. -/
inductive Alive (r : Request) : Place → List RequestAct → Prop
  | queued : Alive r .queued [.handed r]
  | processing : Alive r .processing [.handed r, .popped]
  | pending : r.type = RT_Action → Alive r .pending [.handed r, .popped, .recorded]

/-- The response of `processCynaraRequest` to an Action whose dialog could not be started. -/
def startFailure (r : Request) : Sent :=
  ⟨RT_Action, r.id, Translator.Agent.answerToData 0 AgentErrorMsg.Error, .startFailure⟩

/-- The response to a pending Action for the answer of a dialog. -/
def answer (r : Request) (q : Response) : Sent := ⟨RT_Action, r.id, pluginData q.type, .response q⟩

/-- The response to a pending Action for the Cancel at `c`. -/
def cancellation (r : Request) (c : RequestPtr) : Sent := ⟨RT_Cancel, r.id, [], .cancel c⟩

/-- The stories of a deleted request; `exc` and `shut` say whether an exception has ended `run`,
and whether `finish` has run. -/
inductive Ended (exc shut : Prop) (r : Request) : List RequestAct → Prop
  | closed : r.type = RT_Close → Ended exc shut r [.handed r, .popped, .deleted]
  | cancel : r.type = RT_Cancel → Ended exc shut r [.handed r, .popped, .deleted]
  | duplicate (q : RequestPtr) : r.type = RT_Action →
      Ended exc shut r [.handed r, .popped, .duplicate q, .deleted]
  | startFailed : r.type = RT_Action →
      Ended exc shut r [.handed r, .popped, .startFailed, .sent (startFailure r), .deleted]
  | answered (q : Response) : r.type = RT_Action → q.id = r.id →
      Ended exc shut r [.handed r, .popped, .recorded, .sent (answer r q), .deleted]
  | cancelled (c : RequestPtr) : r.type = RT_Action →
      Ended exc shut r [.handed r, .popped, .recorded, .deleted, .sent (cancellation r c)]
  | thrown (e : StdException) : exc → r.type = RT_Action →
      Ended exc shut r [.handed r, .popped, .thrown e, .deleted]
  | drained : shut → Ended exc shut r [.handed r, .deleted]
  | shutDown : shut → r.type = RT_Action →
      Ended exc shut r [.handed r, .popped, .recorded, .deleted]

theorem Ended.mono {exc shut exc' shut' : Prop} {r : Request} {h : List RequestAct}
    (he : exc → exc') (hs : shut → shut') (hend : Ended exc shut r h) : Ended exc' shut' r h := by
  cases hend with
  | closed hr => exact .closed hr
  | cancel hr => exact .cancel hr
  | duplicate q hr => exact .duplicate q hr
  | startFailed hr => exact .startFailed hr
  | answered q hr hq => exact .answered q hr hq
  | cancelled c hr => exact .cancelled c hr
  | thrown e h hr => exact .thrown e (he h) hr
  | drained h => exact .drained (hs h)
  | shutDown h hr => exact .shutDown (hs h) hr

theorem Alive.place_unique {r r' : Request} {pl pl' : Place} {h : List RequestAct}
    (h₁ : Alive r pl h) (h₂ : Alive r' pl' h) : r = r' ∧ pl = pl' := by
  cases h₁ <;> cases h₂ <;> exact ⟨rfl, rfl⟩

theorem Alive.of_queued {r : Request} {h : List RequestAct} (ha : Alive r .queued h) :
    h = [.handed r] := by
  cases ha
  rfl

theorem Alive.of_processing {r : Request} {h : List RequestAct} (ha : Alive r .processing h) :
    h = [.handed r, .popped] := by
  cases ha
  rfl

theorem Alive.of_pending {r : Request} {h : List RequestAct} (ha : Alive r .pending h) :
    r.type = RT_Action ∧ h = [.handed r, .popped, .recorded] := by
  cases ha with
  | pending ht => exact ⟨ht, rfl⟩

theorem Alive.not_ended {exc shut : Prop} {r r' : Request} {pl : Place} {h : List RequestAct}
    (ha : Alive r pl h) : ¬ Ended exc shut r' h := by
  cases ha <;> rintro ⟨⟩

/-- The containers agree with the stories, while the call in progress holds `current`. -/
structure Requests.Owned (b : Requests) (current : Option RequestPtr) (exc shut : Prop) : Prop where
  nodup : b.incomingRequests.Nodup
  queued : ∀ {p}, p ∈ b.incomingRequests ↔ ∃ r, Alive r .queued (b.story p)
  processing : ∀ {p}, current = some p ↔ ∃ r, Alive r .processing (b.story p)
  pending : ∀ {i p}, b.requests.lookup i = some p ↔ ∃ r, Alive r .pending (b.story p) ∧ r.id = i
  live : ∀ {p r}, b.objects.cell p = some r ↔ ∃ pl, Alive r pl (b.story p)
  dead : ∀ {p}, b.objects.cell p = none → b.story p = [] ∨ ∃ r, Ended exc shut r (b.story p)
  unborn : ∀ {p}, b.objects.size ≤ p → b.story p = []

namespace Requests.Owned

variable {b b' : Requests} {current current' : Option RequestPtr} {exc shut exc' shut' : Prop}
  {p : RequestPtr} {r : Request}

theorem mono (h : b.Owned current exc shut) (he : exc → exc') (hs : shut → shut') :
    b.Owned current exc' shut' :=
  { h with dead := fun hp => (h.dead hp).imp_right fun ⟨r, hr⟩ => ⟨r, hr.mono he hs⟩ }

theorem not_alive_nil {pl : Place} : ¬ Alive r pl [] := by rintro ⟨⟩

/-! A live request is in no place but its own. -/

theorem not_queued (h : b.Owned current exc shut) {pl : Place} (hpl : Alive r pl (b.story p))
    (hne : pl ≠ .queued) : p ∉ b.incomingRequests := by
  intro hq
  obtain ⟨r', hr'⟩ := h.queued.1 hq
  exact hne (hpl.place_unique hr').2

theorem not_processing (h : b.Owned current exc shut) {pl : Place} (hpl : Alive r pl (b.story p))
    (hne : pl ≠ .processing) : current ≠ some p := by
  intro hc
  obtain ⟨r', hr'⟩ := h.processing.1 hc
  exact hne (hpl.place_unique hr').2

theorem not_pending (h : b.Owned current exc shut) {pl : Place} (hpl : Alive r pl (b.story p))
    (hne : pl ≠ .pending) (i : RequestId) : b.requests.lookup i ≠ some p := by
  intro hi
  obtain ⟨r', hr', -⟩ := h.pending.1 hi
  exact hne (hpl.place_unique hr').2

theorem filter_queue (hp : p ∉ b.incomingRequests) :
    b.incomingRequests.filter (· ≠ p) = b.incomingRequests := by
  refine List.filter_eq_self.2 fun a ha => ?_
  simp only [decide_eq_true_eq, ne_eq]
  rintro rfl
  exact hp ha

/-- A change that touches one request only keeps the agreement if it does so at that request. -/
theorem change (h : b.Owned current exc shut) (st : List RequestAct)
    (hstory : ∀ q, b'.story q = if q = p then st else b.story q)
    (hsize : b.objects.size ≤ b'.objects.size ∧ p < b'.objects.size)
    (hnodup : b'.incomingRequests.Nodup)
    (hother : ∀ q ≠ p, (q ∈ b'.incomingRequests ↔ q ∈ b.incomingRequests) ∧
      (current' = some q ↔ current = some q) ∧
      (∀ i, b'.requests.lookup i = some q ↔ b.requests.lookup i = some q) ∧
      b'.objects.cell q = b.objects.cell q)
    (hqueued : p ∈ b'.incomingRequests ↔ ∃ r, Alive r .queued st)
    (hprocessing : current' = some p ↔ ∃ r, Alive r .processing st)
    (hpending : ∀ i, b'.requests.lookup i = some p ↔ ∃ r, Alive r .pending st ∧ r.id = i)
    (hlive : ∀ r, b'.objects.cell p = some r ↔ ∃ pl, Alive r pl st)
    (hdead : b'.objects.cell p = none → ∃ r, Ended exc shut r st) :
    b'.Owned current' exc shut := by
  refine ⟨hnodup, fun {q} => ?_, fun {q} => ?_, fun {i q} => ?_, fun {q r} => ?_, fun {q} hq => ?_,
    fun {q} hq => ?_⟩
  · by_cases hqp : q = p
    · simpa [hstory, hqp] using hqueued
    · simpa [hstory, hqp, (hother q hqp).1] using h.queued
  · by_cases hqp : q = p
    · simpa [hstory, hqp] using hprocessing
    · simpa [hstory, hqp, (hother q hqp).2.1] using h.processing
  · by_cases hqp : q = p
    · simpa [hstory, hqp] using hpending i
    · simpa [hstory, hqp, (hother q hqp).2.2.1] using h.pending
  · by_cases hqp : q = p
    · simpa [hstory, hqp] using hlive r
    · simpa [hstory, hqp, (hother q hqp).2.2.2] using h.live
  · by_cases hqp : q = p
    · rw [hstory, if_pos hqp]
      exact Or.inr (hdead (hqp ▸ hq))
    · rw [hstory, if_neg hqp]
      exact h.dead ((hother q hqp).2.2.2 ▸ hq)
  · have hqp : q ≠ p := fun he => absurd hsize.2 (Nat.not_lt.2 (he ▸ hq))
    rw [hstory, if_neg hqp]
    exact h.unborn (hsize.1.trans hq)

theorem hand (h : b.Owned current exc shut) (r : Request) :
    (b.hand r).Owned current exc shut := by
  have hnil : b.story b.objects.size = [] := h.unborn (Nat.le_refl _)
  have hA : ∀ {pl r'}, ¬ Alive r' pl (b.story b.objects.size) := fun hA =>
    not_alive_nil (hnil ▸ hA)
  have hq : b.objects.size ∉ b.incomingRequests := by
    intro hm
    obtain ⟨r', hr'⟩ := h.queued.1 hm
    exact hA hr'
  refine h.change (p := b.objects.size) [.handed r] (fun q => ?_) ⟨by simp [Requests.hand],
    by simp [Requests.hand]⟩ ?_ (fun q hq => ?_) ?_ ?_ (fun i => ?_) (fun r' => ?_) ?_
  · rw [story_hand]
    split_ifs with hqs
    · rw [hqs, hnil, List.nil_append]
    · rfl
  · exact List.nodup_append.2 ⟨h.nodup, List.nodup_singleton _, fun a ha c hc => by
      rw [List.mem_singleton.1 hc]
      exact fun hac => hq (hac ▸ ha)⟩
  · simp [Requests.hand, hq]
  · exact iff_of_true (by simp [Requests.hand]) ⟨r, .queued⟩
  · refine iff_of_false (fun hc => ?_) (by rintro ⟨_, ⟨⟩⟩)
    obtain ⟨r', hr'⟩ := h.processing.1 hc
    exact hA hr'
  · refine iff_of_false (fun hc => ?_) (by rintro ⟨_, ⟨⟩, _⟩)
    obtain ⟨r', hr', -⟩ := h.pending.1 hc
    exact hA hr'
  · simp only [Requests.hand, Heap.cell_alloc, if_true, Option.some.injEq]
    exact ⟨by rintro rfl; exact ⟨_, .queued⟩, by rintro ⟨_, ⟨⟩⟩; rfl⟩
  · simp [Requests.hand]

theorem pop (h : b.Owned none exc shut) {rest : List RequestPtr}
    (hq : b.incomingRequests = p :: rest) :
    ({ b with incomingRequests := rest }.note p .popped).Owned (some p) exc shut := by
  obtain ⟨r, hr⟩ := h.queued.1 (hq ▸ List.mem_cons_self : p ∈ b.incomingRequests)
  have hst := hr.of_queued
  have hnodup := h.nodup
  rw [hq, List.nodup_cons] at hnodup
  have hcell := h.live.2 ⟨_, hr⟩
  refine h.change (p := p) [.handed r, .popped] (fun q => ?_)
    ⟨Nat.le_refl _, Heap.lt_size hcell⟩ hnodup.2 (fun q hqp => ?_) ?_ ?_ (fun i => ?_)
    (fun r' => ?_) ?_
  · rw [story_note]
    split_ifs with hqp
    · rw [hqp]
      exact congrArg (· ++ [.popped]) hst
    · rfl
  · simp [Requests.note, hq, hqp, Ne.symm hqp]
  · exact iff_of_false hnodup.1 (by rintro ⟨_, ⟨⟩⟩)
  · exact iff_of_true rfl ⟨r, .processing⟩
  · exact iff_of_false (h.not_pending hr (by simp) i) (by rintro ⟨_, ⟨⟩, _⟩)
  · simp only [Requests.note, hcell, Option.some.injEq]
    exact ⟨by rintro rfl; exact ⟨_, .processing⟩, by rintro ⟨_, ⟨⟩⟩; rfl⟩
  · simp [Requests.note, hcell]

/-- The call in progress puts its request into `m_requests`. -/
theorem record (h : b.Owned (some p) exc shut) (hcell : b.objects.cell p = some r)
    (hr : r.type = RT_Action) (hid : b.requests.lookup r.id = none) :
    (b.insert r.id p).Owned none exc shut := by
  obtain ⟨r', hr'⟩ := h.processing.1 rfl
  obtain ⟨pl, hpl⟩ := h.live.1 hcell
  obtain ⟨rfl, rfl⟩ := hpl.place_unique hr'
  have hst := hpl.of_processing
  have hstory : ∀ q, (b.insert r.id p).story q =
      if q = p then [.handed r, .popped, .recorded] else b.story q := by
    intro q
    rw [story_insert hid]
    split_ifs with hqp
    · rw [hqp]
      exact congrArg (· ++ [.recorded]) hst
    · rfl
  rw [insert_eq hid] at hstory ⊢
  refine h.change (p := p) [.handed r, .popped, .recorded] hstory
    ⟨Nat.le_refl _, Heap.lt_size hcell⟩ h.nodup (fun q hqp => ?_) ?_ ?_ (fun i => ?_)
    (fun r' => ?_) ?_
  · refine ⟨Iff.rfl, by simp [Ne.symm hqp], fun i => ?_, rfl⟩
    by_cases hi : i = r.id
    · subst hi
      simp [hid, Ne.symm hqp]
    · simp [AList.lookup_insert_ne hi]
  · exact iff_of_false (h.not_queued hpl (by simp)) (by rintro ⟨_, ⟨⟩⟩)
  · exact iff_of_false (by simp) (by rintro ⟨_, ⟨⟩⟩)
  · by_cases hi : i = r.id
    · subst hi
      simp only [AList.lookup_insert]
      exact iff_of_true trivial ⟨r, .pending hr, rfl⟩
    · rw [AList.lookup_insert_ne hi]
      refine iff_of_false (h.not_pending hpl (by simp) i) ?_
      rintro ⟨r', ⟨⟩, hi'⟩
      exact hi hi'.symm
  · simp only [hcell, Option.some.injEq]
    exact ⟨by rintro rfl; exact ⟨_, .pending hr⟩, by rintro ⟨_, ⟨⟩⟩; rfl⟩
  · simp [hcell]

/-- A request is deleted, and taken out of the hands that held it. -/
theorem dispose (h : b.Owned current exc shut) (hcell : b.objects.cell p = some r)
    {st : List RequestAct} (hend : Ended exc shut r st)
    (hobjects : b'.objects = b.objects.free p)
    (hstory : ∀ q, b'.story q = if q = p then st else b.story q)
    (hqueue : b'.incomingRequests = b.incomingRequests.filter (· ≠ p))
    (hcurrent : ∀ q, current' = some q ↔ current = some q ∧ q ≠ p)
    (hrequests : ∀ i q, b'.requests.lookup i = some q ↔ b.requests.lookup i = some q ∧ q ≠ p) :
    b'.Owned current' exc shut := by
  have hdead : ∀ {r' pl}, ¬ Alive r' pl st := fun hA => hA.not_ended hend
  -- a complete story is the story of no live request, so every place must be empty
  refine h.change st hstory ⟨by rw [hobjects]; exact Nat.le_refl _, ?_⟩ ?_ (fun q hqp => ?_) ?_ ?_
    (fun i => ?_) (fun r' => ?_) (fun _ => ⟨r, hend⟩)
  · rw [hobjects, Heap.size_free]
    exact Heap.lt_size hcell
  · rw [hqueue]
    exact h.nodup.filter _
  · simp [hqueue, hcurrent, hrequests, hobjects, hqp]
  · simp [hqueue, hdead]
  · simp [hcurrent, hdead]
  · simp [hrequests, hdead]
  · simp [hobjects, hdead]

/-- Erasing the entry of one request, which has no other entry. -/
theorem lookup_erase (h : b.Owned current exc shut) {id : RequestId}
    (hp : b.requests.lookup id = some p) (i : RequestId) (q : RequestPtr) :
    (b.requests.erase id).lookup i = some q ↔ b.requests.lookup i = some q ∧ q ≠ p := by
  by_cases hi : i = id
  · subst hi
    simp [hp, eq_comm]
  · rw [AList.lookup_erase_ne hi]
    refine ⟨fun hq => ⟨hq, ?_⟩, fun hq => hq.1⟩
    rintro rfl
    obtain ⟨r, hr, hid⟩ := h.pending.1 hp
    obtain ⟨r', hr', hid'⟩ := h.pending.1 hq
    obtain ⟨rfl, -⟩ := hr.place_unique hr'
    exact hi (hid'.symm.trans hid)

/-- The request in the hands of the call in progress is disposed of. -/
theorem drop (h : b.Owned (some p) exc shut) (hcell : b.objects.cell p = some r)
    {acts : List RequestAct} (hend : Ended exc shut r (.handed r :: .popped :: acts))
    (hobjects : b'.objects = b.objects.free p)
    (hstory : ∀ q, b'.story q = if q = p then b.story q ++ acts else b.story q)
    (hqueue : b'.incomingRequests = b.incomingRequests) (hrequests : b'.requests = b.requests) :
    b'.Owned none exc shut := by
  obtain ⟨r', hr'⟩ := h.processing.1 rfl
  obtain ⟨pl, hpl⟩ := h.live.1 hcell
  obtain ⟨rfl, rfl⟩ := hpl.place_unique hr'
  have hstory' : ∀ q, b'.story q = if q = p then .handed r :: .popped :: acts else b.story q := by
    intro q
    rw [hstory]
    split_ifs with hqp
    · rw [hqp, hpl.of_processing]
      rfl
    · rfl
  refine h.dispose hcell hend hobjects hstory' ?_ (fun q => by simp [eq_comm]) fun i q => ?_
  · rw [hqueue, filter_queue (h.not_queued hpl (by simp))]
  · rw [hrequests]
    refine ⟨fun hq => ⟨hq, ?_⟩, fun hq => hq.1⟩
    rintro rfl
    exact h.not_pending hpl (by simp) i hq

/-- A request in `m_requests` is disposed of, and its entry erased. -/
theorem settle (h : b.Owned current exc shut) {id : RequestId}
    (hl : b.requests.lookup id = some p) (hcell : b.objects.cell p = some r)
    (acts : List RequestAct) (hend : Ended exc shut r (.handed r :: .popped :: .recorded :: acts))
    (hobjects : b'.objects = b.objects.free p)
    (hstory : ∀ q, b'.story q = if q = p then b.story q ++ acts else b.story q)
    (hqueue : b'.incomingRequests = b.incomingRequests)
    (hrequests : b'.requests = b.requests.erase id) :
    b'.Owned current exc shut := by
  obtain ⟨r', hr', -⟩ := h.pending.1 hl
  obtain ⟨pl, hpl⟩ := h.live.1 hcell
  obtain ⟨rfl, rfl⟩ := hpl.place_unique hr'
  have hstory' : ∀ q, b'.story q =
      if q = p then .handed r :: .popped :: .recorded :: acts else b.story q := by
    intro q
    rw [hstory]
    split_ifs with hqp
    · rw [hqp, hpl.of_pending.2]
      rfl
    · rfl
  refine h.dispose hcell hend hobjects hstory' ?_ (fun q => ?_) fun i q => ?_
  · rw [hqueue, filter_queue (h.not_queued hpl (by simp))]
  · refine ⟨fun hq => ⟨hq, ?_⟩, fun hq => hq.1⟩
    rintro rfl
    exact h.not_processing hpl (by simp) hq
  · rw [hrequests]
    exact h.lookup_erase hl i q

end Requests.Owned

end AskUser.Agent
