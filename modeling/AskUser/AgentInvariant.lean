import AskUser.MainSteps

/-!
# The invariant of the agent

Every step of every thread keeps `Inv`, except that a clash ends the run (`step_inv`); so `Inv`
holds in every state of every run but the last one of a run that `std::terminate` ended (`sound`).
`step_cases` is what a step can do at all, and is all that later proofs use of the code.
-/

namespace AskUser.Agent
open RequestType Objects

variable {L : Limits} {c : Choice} {s : Agent} {p : RequestPtr} {r : Request}

/-! ### The invariant along a run -/

theorem inv_new : Inv new where
  running := by simp [new]
  owned := ⟨List.nodup_nil, by
      simp only [new, List.not_mem_nil, false_iff, not_exists]
      rintro p r ⟨⟩, by
      simp only [new, Pc.current, reduceCtorEq, false_iff, not_exists]
      rintro p r ⟨⟩, by
      simp only [new, AList.lookup_empty, reduceCtorEq, false_iff, not_exists]
      rintro i p r ⟨⟨⟩, -⟩, by
      simp only [new, Heap.cell_empty, reduceCtorEq, false_iff, not_exists]
      rintro p r pl ⟨⟩, fun _ => Or.inl rfl, fun _ => rfl⟩
  wired := Dialogs.wired_new
  joins := rfl
  talker := by simp [new]
  finished := by simp [new]

/-- Before the end of `run`, and with the talker's thread as it was, the requests and the dialogs
are all that the invariant is about. -/
theorem Inv.change (h : Inv s) {pc : Pc} (hpc : s.pc = pc) (hrun : pc.isFinal = false) {s' : Agent}
    (hrun' : s'.pc.isFinal = false)
    (ho : s.store.Owned pc.current s.exception.isSome False →
      s'.store.Owned s'.pc.current s'.exception.isSome False)
    (hw : s'.dialogs.Wired) (ht : s'.talker = s.talker)
    (hj : s'.talkerJoins = s.talkerJoins) : Inv s' := by
  subst hpc
  have hnot : ¬ s.pc.isFinal := by simp [hrun]
  have hnot' : ¬ s'.pc.isFinal := by simp [hrun']
  exact
    { running := fun a ha => hnot' (by rw [ha]; rfl)
      owned := (ho (h.owned.mono id hnot)).mono id False.elim
      wired := hw
      joins := by rw [ht, hj, h.joins]
      talker := fun hjoin => absurd (h.talker (ht ▸ hjoin)) hnot
      finished := fun hf => absurd (by rw [hf]; rfl) hnot' }

theorem Requests.story_note_free {b : Requests} {p q : RequestPtr} {a : RequestAct} :
    ((b.note p a).free p).story q = if q = p then b.story q ++ [a, .deleted] else b.story q := by
  by_cases hq : q = p <;> simp [hq]

/-- **A step of the main thread** keeps the invariant, or is a clash. -/
theorem MainStep.inv (h : Inv s) {s' : Agent} (hs : MainStep L c s s') :
    s'.pc = .crashed .terminate ∨ Inv s' := by
  cases hs with
  | clashed => exact Or.inl rfl
  | exited _ _ hinv => exact Or.inr hinv
  | finished _ _ hinv => exact Or.inr hinv
  | start hpc =>
    have hnot : s.talker ≠ .joined := fun hj => by simpa [hpc, Pc.isFinal] using h.talker hj
    have hjoins : s.talkerJoins = 0 := by simpa [hnot] using h.joins
    have ho := h.owned
    rw [hpc] at ho
    exact Or.inr ⟨by simp, ho, h.wired, by simp [hjoins], by simp, by simp⟩
  | @moves pc hm =>
    have hfinal : s.pc.isFinal = false ∧ pc.isFinal = false := by
      generalize s.pc = pc₀ at hm
      cases hm <;> exact ⟨rfl, rfl⟩
    have hcurrent : s.pc.current = pc.current := by
      generalize s.pc = pc₀ at hm
      cases hm <;> rfl
    exact Or.inr (h.change rfl hfinal.1 hfinal.2 (fun ho => hcurrent ▸ ho) h.wired rfl rfl)
  | popped hpc hq =>
    exact Or.inr (h.change hpc rfl rfl (fun ho => ho.pop hq) h.wired rfl rfl)
  | @closed p r hpc hp hr =>
    refine Or.inr (h.change hpc rfl rfl (fun ho => ?_) h.wired rfl rfl)
    exact ho.drop hp (.closed hr) rfl (fun _ => Requests.story_free) rfl rfl
  | @cancelled p q r d hpc hp hr hl hd hev =>
    refine Or.inr (h.change hpc rfl rfl (fun ho => ?_) hd rfl rfl)
    obtain ⟨rq, hq, hid, haction, -, hne⟩ := h.pending_live hl
    have hqp : p ≠ q := fun he => hne (by rw [hpc, he]; rfl)
    -- the pending request is settled first, while the Cancel is still held
    have ho' : (((s.store.free q).erase r.id).note q (.sent ⟨r.type, r.id, [], .cancel p⟩)).Owned
        (some p) s.exception.isSome False := by
      refine ho.settle hl hq [.deleted, .sent ⟨r.type, r.id, [], .cancel p⟩]
        (by rw [hr, ← hid]; exact .cancelled p haction) rfl (fun q' => ?_) rfl rfl
      by_cases hq' : q' = q <;> simp [hq']
    refine ho'.drop (r := r) ?_ (.cancel hr) rfl (fun _ => Requests.story_free) rfl rfl
    simpa [hqp] using hp
  | @duplicate p q r hpc hp hr hl =>
    refine Or.inr (h.change hpc rfl rfl (fun ho => ?_) h.wired rfl rfl)
    exact ho.drop hp (.duplicate q hr) rfl (fun _ => Requests.story_note_free) rfl rfl
  | @unknownCancel p r hpc hp hr hl =>
    refine Or.inr (h.change hpc rfl rfl (fun ho => ?_) h.wired rfl rfl)
    exact ho.drop hp (.cancel hr) rfl (fun _ => Requests.story_free) rfl rfl
  | @thrown p r e hpc hp hr hl he =>
    refine Or.inr (h.change hpc rfl rfl (fun ho => ?_) h.wired rfl rfl)
    exact (ho.mono (fun _ => rfl) id).drop hp (.thrown e rfl hr) rfl
      (fun _ => Requests.story_note_free) rfl rfl
  | @startFailed p r d hpc hp hr hl hd hc =>
    refine Or.inr (h.change hpc rfl rfl (fun ho => ?_) (h.wired.discard c) rfl rfl)
    refine ho.drop hp (.startFailed hr) rfl (fun q => ?_) rfl rfl
    by_cases hq : q = p <;> simp [hq]
  | @recorded p r d hpc hp hr hl hd hc hu =>
    exact Or.inr (h.change hpc rfl rfl (fun ho => ho.record hp hr hl) (h.wired.opened c p hu)
      rfl rfl)
  | poppedResponse hpc hq => exact Or.inr (h.change hpc rfl rfl id h.wired rfl rfl)
  | @answered q p r d hpc hl hp hid hd hev =>
    refine Or.inr (h.change hpc rfl rfl (fun ho => ?_) hd rfl rfl)
    obtain ⟨r', hp', -, haction, -⟩ := h.pending_live hl
    obtain rfl : r = r' := Option.some.inj (hp.symm.trans hp')
    refine ho.settle hl hp _ (.answered q haction hid.symm) rfl (fun q' => ?_) rfl rfl
    by_cases hq' : q' = p <;> simp [hq']
  | unmatched hpc hl hd hev => exact Or.inr (h.change hpc rfl rfl id hd rfl rfl)
  | cleaned hpc hd hev => exact Or.inr (h.change hpc rfl rfl id hd rfl rfl)

/-! ### The other threads -/

/-- Before the end of the run, the talker's thread can go on to any state but `joined`. -/
theorem Inv.talk (h : Inv s) (hs : ¬ s.pc.isFinal)
    {b : Requests} {t : TalkerState} (hb : b = s.store ∨ ∃ r, b = s.store.hand r)
    (ht : t ≠ .joined) (hj : s.talker ≠ .joined) : Inv { s with store := b, talker := t } where
  running := h.running
  owned := by
    rcases hb with rfl | ⟨r, rfl⟩
    · exact h.owned
    · exact h.owned.hand r
  wired := h.wired
  joins := by simpa [ht, hj] using h.joins
  talker := fun he => absurd he ht
  finished := fun he => absurd (by rw [he]; rfl) hs

/-- What the threads of the talker and of the dialogs can do. -/
inductive OtherStep (s : Agent) : Agent → Prop
  | talker (t : TalkerState) : t ≠ .joined → s.talker ≠ .joined → OtherStep s { s with talker := t }
  | handed (r : Request) (t : TalkerState) : t ≠ .joined → s.talker ≠ .joined →
      OtherStep s { s with store := s.store.hand r, talker := t }
  | posted {u : UIPtr} {ui : AskUINotificationBackend} (type : UIResponseType) :
      s.dialogs.objects.cell u = some ui → ui.thread = .running →
      OtherStep s { s with
        dialogs := s.dialogs.put u { ui with thread := .posted }
        incomingResponses := s.incomingResponses ++ [⟨ui.requestId, type, u⟩]
        answers := s.answers.note u (.posted ⟨ui.requestId, type, u⟩) }
  | threw {u : UIPtr} {ui : AskUINotificationBackend} :
      s.dialogs.objects.cell u = some ui → ui.thread = .running →
      OtherStep s { s with
        dialogs := s.dialogs.put u { ui with thread := .posted }
        answers := s.answers.note u .threw }
  | threadFinished {u : UIPtr} {ui : AskUINotificationBackend} :
      s.dialogs.objects.cell u = some ui → ui.thread = .posted →
      OtherStep s { s with dialogs := s.dialogs.put u { ui with thread := .finished } }
  | sigterm : OtherStep s { s with stopFlag := true }

/-- An event hands in its request, if any, and moves the thread of the talker. -/
theorem talkerStep_spec {e : TalkerEvent} {s' : Agent} (hs : talkerStep e s = some s') :
    s.talker ≠ .joined ∧ s'.talker ≠ .joined ∧
      s' = { e.request.elim s (requestHandler s) with talker := s'.talker } := by
  simp only [talkerStep] at hs
  split at hs
  · next ht =>
    obtain rfl := Option.some.inj hs
    exact ⟨by simp [ht], by simp, rfl⟩
  · next ht =>
    obtain rfl := Option.some.inj hs
    exact ⟨by simp [ht], by simp, rfl⟩
  · next type id data ht =>
    -- a message of an unknown type is dropped, with the talker as it was
    cases hty : cynaraType2AgentType type with
    | some t =>
      simp only [hty] at hs
      obtain rfl := Option.some.inj hs
      exact ⟨by simp [ht], by simp [requestHandler, ht], by simp [TalkerEvent.request, hty]⟩
    | none =>
      simp only [hty] at hs
      obtain rfl := Option.some.inj hs
      exact ⟨by simp [ht], by simp [ht], by simp [TalkerEvent.request, hty]⟩
  · next ht =>
    obtain rfl := Option.some.inj hs
    exact ⟨by simp [ht], by simp, rfl⟩
  · next ht =>
    obtain rfl := Option.some.inj hs
    exact ⟨by simp [ht], by simp, rfl⟩
  · next ht =>
    obtain rfl := Option.some.inj hs
    exact ⟨by simp [ht], by simp, rfl⟩
  · simp at hs

theorem talkerStep_cases {e : TalkerEvent} {s' : Agent} (hs : talkerStep e s = some s') :
    OtherStep s s' := by
  obtain ⟨ht, ht', hs'⟩ := talkerStep_spec hs
  rw [hs']
  cases e.request with
  | none => exact .talker _ ht' ht
  | some r => exact .handed r _ ht' ht

section Dialog

variable {u : UIPtr} {s' : Agent}

theorem postStep_spec {ret : ℤ} {buttonClicked : Int32}
    (hs : postStep u ret buttonClicked s = some s') : ∃ ui, s.dialogs.objects.cell u = some ui ∧
      ui.thread = .running ∧ s' = UIResponseHandler
        { s with dialogs := s.dialogs.put u { ui with thread := .posted } } ui.requestId
        (AskUINotificationBackend.response ret buttonClicked) u := by
  unfold postStep at hs
  split at hs
  · next ui hu =>
    split_ifs at hs with ht
    exact ⟨ui, hu, ht, (Option.some.inj hs).symm⟩
  · simp at hs

theorem throwStep_spec (hs : throwStep u s = some s') : ∃ ui,
    s.dialogs.objects.cell u = some ui ∧ ui.thread = .running ∧ s' = { s with
      dialogs := s.dialogs.put u { ui with thread := .posted }
      answers := s.answers.note u .threw } := by
  unfold throwStep at hs
  split at hs
  · next ui hu =>
    split_ifs at hs with ht
    exact ⟨ui, hu, ht, (Option.some.inj hs).symm⟩
  · simp at hs

theorem finishStep_spec (hs : finishStep u s = some s') : ∃ ui,
    s.dialogs.objects.cell u = some ui ∧ ui.thread = .posted ∧
      s' = { s with dialogs := s.dialogs.put u { ui with thread := .finished } } := by
  unfold finishStep at hs
  split at hs
  · next ui hu =>
    split_ifs at hs with ht
    exact ⟨ui, hu, ht, (Option.some.inj hs).symm⟩
  · simp at hs

end Dialog

/-- **What a step can do**, by the thread that takes it. -/
theorem step_cases {l : Label} {s' : Agent} (h : Inv s) (hs : step L l s = some s') :
    s.pc.isFinal = false ∧
      ((∃ c, l = .main c ∧ MainStep L c s s') ∨ (∀ c, l ≠ .main c) ∧ OtherStep s s') := by
  simp only [step] at hs
  cases hpc : s.pc.isFinal with
  | true => simp [hpc] at hs
  | false =>
    refine ⟨rfl, ?_⟩
    simp only [hpc, Bool.false_eq_true, if_false] at hs
    cases l with
    | main c =>
      obtain rfl := Option.some.inj hs
      exact Or.inl ⟨c, rfl, mainStep_cases h hpc⟩
    | talker e => exact Or.inr ⟨by simp, talkerStep_cases hs⟩
    | post u ret buttonClicked =>
      obtain ⟨ui, hu, ht, rfl⟩ := postStep_spec hs
      exact Or.inr ⟨by simp, .posted _ hu ht⟩
    | postThrows u =>
      obtain ⟨ui, hu, ht, rfl⟩ := throwStep_spec hs
      exact Or.inr ⟨by simp, .threw hu ht⟩
    | finish u =>
      obtain ⟨ui, hu, ht, rfl⟩ := finishStep_spec hs
      exact Or.inr ⟨by simp, .threadFinished hu ht⟩
    | sigterm =>
      obtain rfl := Option.some.inj hs
      exact Or.inr ⟨by simp, .sigterm⟩

theorem OtherStep.inv (h : Inv s) (hpc : s.pc.isFinal = false) {s' : Agent}
    (hs : OtherStep s s') : Inv s' := by
  have hshut : ¬ s.pc.isFinal := by simp [hpc]
  cases hs with
  | talker t ht hj => exact h.talk hshut (Or.inl rfl) ht hj
  | handed r t ht hj => exact h.talk hshut (Or.inr ⟨r, rfl⟩) ht hj
  | posted _ hu | threw hu =>
    exact h.change rfl hpc hpc id
      (h.wired.put hu rfl (by simp [AskUINotificationBackend.joinable])) rfl rfl
  | threadFinished hu ht =>
    exact h.change rfl hpc hpc id
      (h.wired.put hu rfl (by simp [AskUINotificationBackend.joinable])) rfl rfl
  | sigterm => exact h.change rfl hpc hpc id h.wired rfl rfl

/-- **Every step** keeps the invariant, or is a clash. -/
theorem step_inv (h : Inv s) {l : Label} {s' : Agent} (hs : step L l s = some s') :
    s'.pc = .crashed .terminate ∨ Inv s' := by
  obtain ⟨hpc, ⟨c, -, hmain⟩ | ⟨-, hother⟩⟩ := step_cases h hs
  · exact hmain.inv h
  · exact Or.inr (hother.inv h hpc)

/-- No step leaves a crashed state. -/
theorem step_crashed {l : Label} {a : Abort} (ha : s.pc = .crashed a) : step L l s = none := by
  simp [step, ha, Pc.isFinal]

/-- **The invariant** holds in every state of every run, but for the last one of a run that
`std::terminate` ended. -/
theorem sound {cond : Label → Agent → Prop} (h : Reachable L cond s) :
    s.pc = .crashed .terminate ∨ Inv s := by
  refine h.invariant (P := fun s => s.pc = .crashed .terminate ∨ Inv s) (Or.inr inv_new)
    fun l s s' ih _ hs => ?_
  rcases ih with hcrash | hinv
  · rw [step_crashed hcrash] at hs
    exact absurd hs (by simp)
  · exact step_inv hinv hs

/-! ### What a step adds to the stories of the requests -/

section Stories

variable {b : Requests} {q : RequestPtr} {a e : RequestAct} {s' : Agent} {x : Sent}

theorem mem_story_note : e ∈ (b.note p a).story q ↔ e ∈ b.story q ∨ q = p ∧ e = a := by
  by_cases hq : q = p <;> simp [hq]

theorem mem_story_free : e ∈ (b.free p).story q ↔ e ∈ b.story q ∨ q = p ∧ e = .deleted := by
  by_cases hq : q = p <;> simp [hq]

theorem mem_story_insert {id : RequestId} (h : b.requests.lookup id = none) :
    e ∈ (b.insert id p).story q ↔ e ∈ b.story q ∨ q = p ∧ e = .recorded := by
  rw [Requests.story_insert h]
  by_cases hq : q = p <;> simp [hq]

theorem mem_story_hand :
    e ∈ (b.hand r).story q ↔ e ∈ b.story q ∨ q = b.objects.size ∧ e = .handed r := by
  by_cases hq : q = b.objects.size <;> simp [hq]

/-- A response that a step of the main thread sends: for an Action whose dialog could not be
started, for a pending one with the id of the response that is processed, or for the Cancel that is
processed. -/
theorem MainStep.sent (hs : MainStep L c s s') (hx : .sent x ∈ s'.store.story p) :
    .sent x ∈ s.store.story p ∨ x.cause = .startFailure ∨
      (∃ q, s.pc = .response q ∧ s.store.requests.lookup q.id = some p ∧
        x.cause = .response q) ∨
      ∃ p' r, s.pc = .request p' ∧ s.store.objects.cell p' = some r ∧ r.type = RT_Cancel ∧
        x.requestId = r.id ∧ x.cause = .cancel p' := by
  cases hs with
  | start | moves | clashed | poppedResponse | unmatched | cleaned => exact Or.inl hx
  | exited _ _ _ _ hsent | finished _ _ _ _ hsent => exact Or.inl (hsent p x hx)
  | popped =>
    rcases mem_story_note.1 hx with hx | ⟨-, hx⟩
    · exact Or.inl hx
    · simp at hx
  | closed | unknownCancel | duplicate | thrown =>
    exact Or.inl (by
      simpa only [mem_story_free, mem_story_note, reduceCtorEq, and_false, or_false] using hx)
  | @cancelled p' q r d hpc hp hr =>
    simp only [mem_story_free, mem_story_note, Requests.story_erase, reduceCtorEq, and_false,
      or_false, RequestAct.sent.injEq] at hx
    rcases hx with hx | ⟨-, rfl⟩
    · exact Or.inl hx
    · exact Or.inr (Or.inr (Or.inr ⟨p', r, hpc, hp, hr, rfl, rfl⟩))
  | startFailed =>
    simp only [mem_story_free, mem_story_note, reduceCtorEq, and_false, or_false,
      RequestAct.sent.injEq] at hx
    rcases hx with hx | ⟨-, rfl⟩
    · exact Or.inl hx
    · exact Or.inr (Or.inl rfl)
  | @recorded p' r d hpc hp haction hl =>
    exact Or.inl (by simpa only [mem_story_insert hl, reduceCtorEq, and_false, or_false] using hx)
  | @answered q p' r d hpc hl =>
    simp only [mem_story_free, mem_story_note, Requests.story_erase, reduceCtorEq, and_false,
      or_false, RequestAct.sent.injEq] at hx
    rcases hx with hx | ⟨rfl, rfl⟩
    · exact Or.inl hx
    · exact Or.inr (Or.inr (Or.inl ⟨q, hpc, hl, rfl⟩))

theorem OtherStep.sent (hs : OtherStep s s') (hx : .sent x ∈ s'.store.story p) :
    .sent x ∈ s.store.story p := by
  cases hs with
  | handed r => simpa only [mem_story_hand, reduceCtorEq, and_false, or_false] using hx
  | talker | posted | threw | threadFinished | sigterm => exact hx

/-- Before the end of the run nothing is taken out of a story. -/
theorem MainStep.story (hs : MainStep L c s s') (hpc : s'.pc.isFinal = false)
    (he : e ∈ s.store.story p) : e ∈ s'.store.story p := by
  cases hs with
  | start | moves | poppedResponse | unmatched | cleaned => exact he
  | clashed | exited | finished => simp [Pc.isFinal] at hpc
  | popped => exact mem_story_note.2 (Or.inl he)
  | recorded _ _ _ hl => exact (mem_story_insert hl).2 (Or.inl he)
  | closed | unknownCancel | duplicate | thrown | cancelled | startFailed | answered =>
    simp only [mem_story_free, mem_story_note, Requests.story_erase, he, true_or]

theorem OtherStep.story (hs : OtherStep s s') (he : e ∈ s.store.story p) :
    e ∈ s'.store.story p := by
  cases hs with
  | handed r => exact mem_story_hand.2 (Or.inl he)
  | talker | posted | threw | threadFinished | sigterm => exact he

end Stories

end AskUser.Agent
