import AskUser.Attribution
import AskUser.Consent
import AskUser.CreateUI
import AskUser.Dismissal
import AskUser.JournalGrowth
import AskUser.RequestLife

/-!
# Access is the user's to give

From the data of a request to the access of the client, over whole runs of the agent.

* `Rendered` ties the steps that start a dialog to `createUI`, with the strings that the request
  carries; so for every dialog that was started `createUI` was called with the strings of its
  request, and has returned true (`shown`);
* every answer of a dialog goes back to what its user did (`recounted`, `sent_shape`);
* `no_access_without_yes` puts this together with the attribution of answers and the consent law of
  the two plugins.
-/

namespace AskUser.Agent
open ByteText RequestType Objects Fallible
open AskUINotificationBackend (response)

variable {L : Limits} {c : Choice} {s s' : Agent} {p : RequestPtr} {u : UIPtr} {i : RequestId}
  {C : LibcLimits} {E : UIPtr → Calls}

/-! ### What a dialog asks -/

/-- The strings for which a step of the main thread puts a dialog on the screen, if it comes to
that. -/
def asked (L : Limits) (c : Choice) (s : Agent) : Option RequestData :=
  match s.pc with
  | .request p => (s.store.objects.cell p).bind fun r =>
    (Translator.Agent.dataToRequest L c.strSize r.data).toOption
  | _ => none

/-- Dialogs are put on the screen by `createUI`; `E u` are its calls for the dialog at `u`. -/
def Rendered (C : LibcLimits) (E : UIPtr → Calls) (L : Limits) : Label → Agent → Prop
  | .main c, s => ∀ d ∈ asked L c s, c.createUI =
    (createUI C (E s.dialogs.objects.size) d.client d.user d.privilege none).1
  | _, _ => True

instance (C : LibcLimits) (E : UIPtr → Calls) (L : Limits) :
    (l : Label) → (s : Agent) → Decidable (Rendered C E L l s)
  | .main c, s => inferInstanceAs (Decidable (∀ d ∈ asked L c s, c.createUI =
      (createUI C (E s.dialogs.objects.size) d.client d.user d.privilege none).1))
  | .talker _, _ | .post .., _ | .postThrows _, _ | .finish _, _ | .sigterm, _ => .isTrue trivial

/-- For the dialog at `u`, `createUI` was called with the strings of the request at `p`, and has
returned true. -/
def ShownFor (C : LibcLimits) (E : UIPtr → Calls) (L : Limits) (s : Agent) (u : UIPtr)
    (i : RequestId) (p : RequestPtr) : Prop :=
  ∃ r d strSize, .handed r ∈ s.store.story p ∧ r.id = i ∧
    Translator.Agent.dataToRequest L strSize r.data = .ok d ∧
    (createUI C (E u) d.client d.user d.privilege none).1 = true

theorem mem_story_start {d : Dialogs} {j : RequestId} {q : RequestPtr} :
    .started i p ∈ (d.start c j q).story u ↔
      .started i p ∈ d.story u ∨ u = d.objects.size ∧ i = j ∧ p = q := by
  rw [Dialogs.story_start]
  by_cases hu : u = d.objects.size <;> simp [hu]

/-- A step of the main thread that starts a dialog. -/
theorem mainStep_started (h : Inv s) (hpc : s.pc.isFinal = false)
    (hst : .started i p ∈ (mainStep L c s).dialogs.story u) : .started i p ∈ s.dialogs.story u ∨
      u = s.dialogs.objects.size ∧ ∃ r d, s.pc = .request p ∧
        s.store.objects.cell p = some r ∧ r.id = i ∧
        Translator.Agent.dataToRequest L c.strSize r.data = .ok d ∧ c.createUI = true := by
  have hno := noStart_mainStep (L := L) (c := c) (s := s)
  have hs := mainStep_cases (L := L) (c := c) h hpc
  generalize mainStep L c s = s' at *
  cases hs with
  | duplicate | thrown => exact Or.inl hst
  | startFailed =>
    simp only [Dialogs.story_discard] at hst
    split_ifs at hst
    · exact Or.inl (by simpa using hst)
    · exact Or.inl hst
  | @recorded p' r d hpc hp _ _ hd hc =>
    rcases mem_story_start.1 hst with hst | ⟨hu, rfl, rfl⟩
    · exact Or.inl hst
    · exact Or.inr ⟨hu, r, d, hpc, hp, rfl, hd, hc⟩
  | @clashed p' r d v hpc hp _ _ hd hc =>
    rw [Dialogs.story_free] at hst
    replace hst : .started i p ∈ (s.dialogs.start c r.id p').story u := by
      split_ifs at hst <;> simpa using hst
    rcases mem_story_start.1 hst with hst | ⟨hu, rfl, rfl⟩
    · exact Or.inl hst
    · exact Or.inr ⟨hu, r, d, hpc, hp, rfl, hd, hc⟩
  | closed hpc hp ht | cancelled hpc hp ht | unknownCancel hpc hp ht =>
    refine Or.inl (started_of_noStart (hno fun p' r' hpc' hp' => ?_) hst)
    obtain rfl := Pc.request.inj (hpc.symm.trans hpc')
    obtain rfl := Option.some.inj (hp.symm.trans hp')
    simp [ht]
  | moves hm =>
    refine Or.inl (started_of_noStart (hno fun p' r' hpc' => ?_) hst)
    rw [hpc'] at hm
    cases hm
  | start hpc | popped hpc | poppedResponse hpc | answered hpc | unmatched hpc | cleaned hpc
  | exited _ hpc | finished _ hpc =>
    exact Or.inl (started_of_noStart (hno fun p' r' hpc' => by simp [hpc] at hpc') hst)

theorem Alive.handed {r : Request} {pl : Place} {h : List RequestAct} (ha : Alive r pl h) :
    .handed r ∈ h := by
  cases ha <;> exact List.mem_cons_self

theorem ShownFor.mono (h : ShownFor C E L s u i p)
    (hstory : ∀ a, a ∈ s.store.story p → a ∈ s'.store.story p) : ShownFor C E L s' u i p := by
  obtain ⟨r, d, g, hhanded, hrest⟩ := h
  exact ⟨r, d, g, hstory _ hhanded, hrest⟩

/-- A step of the main thread that starts a dialog calls `createUI` for it. -/
theorem mainStep_shown (h : Inv s) (hpc : s.pc.isFinal = false)
    (hrendered : Rendered C E L (.main c) s)
    (hshown : ∀ u i p, .started i p ∈ s.dialogs.story u → ShownFor C E L s u i p)
    (hst : .started i p ∈ (mainStep L c s).dialogs.story u) :
    ShownFor C E L (mainStep L c s) u i p := by
  rcases mainStep_started h hpc hst with hst | ⟨rfl, r, d, hpc, hp, hid, hd, hc⟩
  · exact (hshown u i p hst).mono fun a ha => mainStep_story ha
  · obtain ⟨pl, hpl⟩ := h.owned.live.1 hp
    refine ⟨r, d, c.strSize, mainStep_story hpl.handed, hid, hd, ?_⟩
    have hui : c.createUI = (createUI C (E s.dialogs.objects.size) d.client d.user
        d.privilege none).1 := hrendered d (by simp [asked, hpc, hp, hd, Except.toOption])
    rw [← hui, hc]

/-- **Every dialog** that was started was made by `createUI` from the strings of its request. -/
theorem shown {cond : Label → Agent → Prop} (hcond : ∀ l s, cond l s → Rendered C E L l s)
    (h : Reachable L cond s) : ∀ u i p, .started i p ∈ s.dialogs.story u →
      ShownFor C E L s u i p := by
  induction h with
  | start =>
    intro u i p hst
    simp [new, Dialogs.story] at hst
  | @step s s' l hr hl hs ih =>
    have hr' : Reachable L Run.always s := hr.mono fun _ _ _ => trivial
    have hinv : Inv s := (sound hr').resolve_left fun hcrash => by
      simp [step_crashed hcrash] at hs
    intro u i p hst
    obtain ⟨hpc, ⟨c, rfl, -⟩ | ⟨-, hother⟩⟩ := step_cases hinv hs
    · obtain rfl : mainStep L c s = s' := by simpa [step, hpc] using hs
      exact mainStep_shown hinv hpc (hcond _ _ hl) ih hst
    · exact (ih u i p (hother.dialog_story u ▸ hst)).mono fun a ha => hother.story ha

/-! ### What the users did -/

/-- The step is the answer of the dialog at `u`. -/
def PostedIn (ls : List Label) (u : UIPtr) (type : UIResponseType) : Prop :=
  ∃ ret b, .post u ret b ∈ ls ∧ type = response ret b

/-- The thread of the dialog at `u` has not started, or still waits for the user. -/
def NotPosted (s : Agent) (u : UIPtr) : Prop :=
  (∀ i p, .started i p ∉ s.dialogs.story u) ∨
    ∃ ui, s.dialogs.objects.cell u = some ui ∧ ui.thread = .running

/-- What the labels of a run tell about the answers: each is what a dialog made of its user's
choice, and a dialog answers once. -/
structure Recounted (ls : List Label) (s : Agent) : Prop where
  awaited : s.pc.isFinal ∨ ∀ q, s.Awaited q → PostedIn ls q.postedBy q.type
  sent : ∀ p x q, .sent x ∈ s.store.story p → x.cause = .response q →
    PostedIn ls q.postedBy q.type
  silent : s.pc.isFinal ∨ ∀ u, NotPosted s u → ∀ ret b, .post u ret b ∉ ls
  once : ∀ u ret b ret' b', .post u ret b ∈ ls → .post u ret' b' ∈ ls → ret = ret' ∧ b = b'

theorem PostedIn.mono {ls ls' : List Label} {type : UIResponseType} (h : PostedIn ls u type) :
    PostedIn (ls ++ ls') u type := by
  obtain ⟨ret, b, hmem, htype⟩ := h
  exact ⟨ret, b, List.mem_append_left _ hmem, htype⟩

theorem recounted_new : Recounted [] new where
  awaited := Or.inr fun q hq => by simp [Awaited, new] at hq
  sent _ _ _ hx := by simp [new, Requests.story] at hx
  silent := Or.inr fun _ _ _ _ => List.not_mem_nil
  once _ _ _ _ _ h := absurd h List.not_mem_nil

/-- A step that is no answer of a dialog. -/
theorem Recounted.other {ls : List Label} {l : Label} (h : Recounted ls s)
    (hrun : s.pc.isFinal = false) (hl : ∀ u ret b, l ≠ .post u ret b)
    (hawaited : s'.pc.isFinal ∨ ∀ q, s'.Awaited q → s.Awaited q)
    (hsent : ∀ p x q, .sent x ∈ s'.store.story p → x.cause = .response q →
      .sent x ∈ s.store.story p ∨ s.Awaited q)
    (hsilent : s'.pc.isFinal ∨ ∀ u, NotPosted s' u → NotPosted s u) :
    Recounted (ls ++ [l]) s' := by
  have hnot : ¬ s.pc.isFinal := by simp [hrun]
  have hmem : ∀ {u ret b}, .post u ret b ∈ ls ++ [l] → .post u ret b ∈ ls := fun hm =>
    (List.mem_append.1 hm).resolve_right fun hlast => hl _ _ _ (List.mem_singleton.1 hlast).symm
  refine ⟨hawaited.imp_right fun ha q hq => (h.awaited.resolve_left hnot q (ha q hq)).mono, ?_,
    hsilent.imp_right fun hs u hu ret b hm =>
      h.silent.resolve_left hnot u (hs u hu) ret b (hmem hm),
    fun u ret b ret' b' hm hm' => h.once u ret b ret' b' (hmem hm) (hmem hm')⟩
  intro p x q hx hcause
  rcases hsent p x q hx hcause with hx | hq
  · exact (h.sent p x q hx hcause).mono
  · exact (h.awaited.resolve_left hnot q hq).mono

/-- A step of the main thread finds no dialog waiting that was not waiting or unborn before. -/
theorem mainStep_notPosted (h : Inv s) (hrun : s.pc.isFinal = false)
    (hinv' : Inv (mainStep L c s)) (hrun' : (mainStep L c s).pc.isFinal = false)
    (hu : NotPosted (mainStep L c s) u) : NotPosted s u := by
  have hstory := (mainStep_cases (L := L) (c := c) h hrun).dialog_story u
  rcases hu with hno | ⟨ui', hu', hthread⟩
  · exact Or.inl fun i p hst => hno i p (hstory.subset hst)
  · cases hu : s.dialogs.objects.cell u with
    | some ui =>
      exact Or.inr ⟨ui, hu, (mainStep_thread h hrun hrun' hu hu').symm.trans hthread⟩
    | none =>
      -- its story now is that it was started, so nothing was said of it before
      obtain ⟨p, hst⟩ := hinv'.wired.live hu'
      rw [hst] at hstory
      left
      rcases h.wired.gone hu with hnil | hdestroyed | ⟨i, q, hjoined⟩
      · simp [hnil]
      · simp [hdestroyed]
      · rw [hjoined] at hstory
        simpa using hstory.length_le

/-- The main thread makes no response of its own. -/
theorem MainStep.awaited (hs : MainStep L c s s') :
    s'.pc.isFinal ∨ ∀ q, s'.Awaited q → s.Awaited q := by
  cases hrun : s'.pc.isFinal with
  | true => exact Or.inl rfl
  | false =>
    refine Or.inr fun q hq => Or.inl ?_
    obtain ⟨-, hsame, hno⟩ | ⟨q', hqueue, hpc, -⟩ := hs.pops hrun
    · exact hsame ▸ hq.resolve_right (hno q)
    · rw [hqueue, List.mem_cons]
      rcases hq with hmem | hcur
      · exact Or.inr hmem
      · exact Or.inl (Pc.response.inj (hcur.symm.trans hpc))

theorem Recounted.main {ls : List Label} (h : Recounted ls s) (hinv : Inv s)
    (hrun : s.pc.isFinal = false) (hinv' : (mainStep L c s).pc.isFinal ∨ Inv (mainStep L c s)) :
    Recounted (ls ++ [.main c]) (mainStep L c s) := by
  have hs := mainStep_cases (L := L) (c := c) hinv hrun
  refine h.other hrun (by simp) hs.awaited (fun p x q hx hcause => ?_) ?_
  · rcases hs.sent hx with hx | hstart | ⟨q', hpc, -, hq'⟩ | ⟨_, _, -, -, -, -, hcancel⟩
    · exact Or.inl hx
    · exact absurd (hstart.symm.trans hcause) (by simp)
    · obtain rfl := Cause.response.inj (hq'.symm.trans hcause)
      exact Or.inr (Or.inr hpc)
    · exact absurd (hcancel.symm.trans hcause) (by simp)
  · cases hfinal : (mainStep L c s).pc.isFinal with
    | true => exact Or.inl rfl
    | false =>
      have hinv'' := hinv'.resolve_left (by simp [hfinal])
      exact Or.inr fun u hu => mainStep_notPosted hinv hrun hinv'' hfinal hu

theorem NotPosted.of_same (hdialogs : s'.dialogs = s.dialogs) (h : NotPosted s' u) :
    NotPosted s u := by
  rwa [NotPosted, hdialogs] at h

/-- The thread of a dialog goes on, and does not wait any more. -/
theorem NotPosted.of_put {v : UIPtr} {ui : AskUINotificationBackend}
    (hv : s.dialogs.objects.cell v ≠ none) (hdialogs : s'.dialogs = s.dialogs.put v ui)
    (hthread : ui.thread ≠ .running) (h : NotPosted s' u) :
    (∀ i p, .started i p ∉ s.dialogs.story u) ∨
      u ≠ v ∧ ∃ ui, s.dialogs.objects.cell u = some ui ∧ ui.thread = .running := by
  rcases h with hno | ⟨uu, hu, ht⟩
  · rw [hdialogs] at hno
    exact Or.inl hno
  · rw [hdialogs] at hu
    obtain ⟨ui', hui⟩ := Option.ne_none_iff_exists'.1 hv
    by_cases huv : u = v
    · subst huv
      simp only [Dialogs.put, Heap.cell_modify, if_true, hui, Option.map_some,
        Option.some.injEq] at hu
      exact absurd (hu ▸ ht) hthread
    · exact Or.inr ⟨huv, uu, by simpa [Dialogs.put, huv] using hu, ht⟩

/-- The thread of a dialog answers, for the first time. -/
theorem Recounted.post {ls : List Label} (h : Recounted ls s) (hinv : Inv s)
    (hrun : s.pc.isFinal = false) {ret : ℤ} {b : Int32} (hs : postStep u ret b s = some s') :
    Recounted (ls ++ [.post u ret b]) s' := by
  have hnot : ¬ s.pc.isFinal := by simp [hrun]
  obtain ⟨ui, hu, hthread, rfl⟩ := postStep_spec hs
  have hfirst : ∀ ret b, .post u ret b ∉ ls :=
    h.silent.resolve_left hnot u (Or.inr ⟨ui, hu, hthread⟩)
  have hnew : PostedIn (ls ++ [.post u ret b]) u (response ret b) :=
    ⟨ret, b, List.mem_append_right _ List.mem_cons_self, rfl⟩
  refine ⟨Or.inr fun q hq => ?_, fun p x q hx hcause => (h.sent p x q hx hcause).mono,
    Or.inr fun v hv ret' b' hmem => ?_, fun v r₁ b₁ r₂ b₂ h₁ h₂ => ?_⟩
  · rcases hq with hq | hcur
    · rcases List.mem_append.1 hq with hq | hq
      · exact (h.awaited.resolve_left hnot q (Or.inl hq)).mono
      · obtain rfl := List.mem_singleton.1 hq
        exact hnew
    · exact (h.awaited.resolve_left hnot q (Or.inr hcur)).mono
  · have hv' := hv.of_put (by simp [hu]) rfl (by simp)
    rcases List.mem_append.1 hmem with hmem | hmem
    · exact h.silent.resolve_left hnot v (hv'.imp_right And.right) ret' b' hmem
    · -- the dialog is started, and does not wait any more
      obtain ⟨rfl, -, -⟩ : v = u ∧ ret' = ret ∧ b' = b := by simpa using hmem
      obtain ⟨p, hst⟩ := hinv.wired.live hu
      rcases hv' with hno | ⟨hne, -⟩
      · exact hno ui.requestId p (by simp [hst])
      · exact hne rfl
  · rcases List.mem_append.1 h₁ with h₁ | h₁ <;> rcases List.mem_append.1 h₂ with h₂ | h₂
    · exact h.once v r₁ b₁ r₂ b₂ h₁ h₂
    · simp only [List.mem_singleton, Label.post.injEq] at h₂
      exact absurd (h₂.1 ▸ h₁) (hfirst r₁ b₁)
    · simp only [List.mem_singleton, Label.post.injEq] at h₁
      exact absurd (h₁.1 ▸ h₂) (hfirst r₂ b₂)
    · simp only [List.mem_singleton, Label.post.injEq] at h₁ h₂
      exact ⟨h₁.2.1.trans h₂.2.1.symm, h₁.2.2.trans h₂.2.2.symm⟩

theorem talkerStep_dialogs {e : TalkerEvent} (hs : talkerStep e s = some s') :
    s'.dialogs = s.dialogs ∧ s'.incomingResponses = s.incomingResponses ∧ s'.pc = s.pc := by
  obtain ⟨-, -, hs'⟩ := talkerStep_spec hs
  rw [hs']
  cases e.request <;> exact ⟨rfl, rfl, rfl⟩

/-- **Every answer is told**, along any run. -/
theorem recounted {cond : Label → Agent → Prop} [∀ l s, Decidable (cond l s)] {ls : List Label}
    (h : Run.exec (step L) cond ls new = some s) : Recounted ls s := by
  refine (Run.exec_history (P := fun ls s => Reachable L Run.always s ∧ Recounted ls s)
    ⟨.start, recounted_new⟩ (fun ls l s s' ih _ hs => ?_) h).2
  obtain ⟨hr, h⟩ := ih
  have hr' : Reachable L Run.always s' := hr.step l trivial hs
  refine ⟨hr', ?_⟩
  have hinv : Inv s := (sound hr).resolve_left fun hcrash => by simp [step_crashed hcrash] at hs
  obtain ⟨hrun, hcases⟩ := step_cases hinv hs
  have hother : (∀ c, l ≠ .main c) → OtherStep s s' := fun hno =>
    (hcases.resolve_left fun ⟨c, hc, _⟩ => hno c hc).2
  cases l with
  | main c =>
    obtain rfl : mainStep L c s = s' := by simpa [step, hrun] using hs
    exact h.main hinv hrun ((sound hr').imp_left fun hcrash => by rw [hcrash]; rfl)
  | post u ret b =>
    simp only [step, hrun, Bool.false_eq_true, if_false] at hs
    exact h.post hinv hrun hs
  | talker e =>
    have hstep := hother (by simp)
    simp only [step, hrun, Bool.false_eq_true, if_false] at hs
    obtain ⟨hdialogs, hqueue, hpc⟩ := talkerStep_dialogs hs
    exact h.other hrun (by simp) (Or.inr fun q hq => by rwa [Awaited, hqueue, hpc] at hq)
      (fun p x q hx _ => Or.inl (hstep.sent hx)) (Or.inr fun u hu => hu.of_same hdialogs)
  | sigterm =>
    have hstep := hother (by simp)
    simp only [step, hrun, Bool.false_eq_true, if_false] at hs
    obtain rfl := Option.some.inj hs
    exact h.other hrun (by simp) (Or.inr fun q hq => hq) (fun p x q hx _ => Or.inl (hstep.sent hx))
      (Or.inr fun u hu => hu)
  | postThrows v =>
    have hstep := hother (by simp)
    simp only [step, hrun, Bool.false_eq_true, if_false] at hs
    obtain ⟨ui, hv, -, rfl⟩ := throwStep_spec hs
    exact h.other hrun (by simp) (Or.inr fun q hq => hq) (fun p x q hx _ => Or.inl (hstep.sent hx))
      (Or.inr fun u hu => (hu.of_put (by simp [hv]) rfl (by simp)).imp_right And.right)
  | finish v =>
    have hstep := hother (by simp)
    simp only [step, hrun, Bool.false_eq_true, if_false] at hs
    obtain ⟨ui, hv, -, rfl⟩ := finishStep_spec hs
    exact h.other hrun (by simp) (Or.inr fun q hq => hq) (fun p x q hx _ => Or.inl (hstep.sent hx))
      (Or.inr fun u hu => (hu.of_put (by simp [hv]) rfl (by simp)).imp_right And.right)

/-! ### The access -/

/-- The three responses there are about a request. -/
def ResponseTo (r : Request) (x : Sent) : Prop :=
  x = startFailure r ∨ (∃ q, q.id = r.id ∧ x = answer r q) ∨ ∃ k, x = cancellation r k

theorem Inv.responseTo (h : Inv s) {x : Sent} (hx : .sent x ∈ s.store.story p) :
    ∃ r, .handed r ∈ s.store.story p ∧ ResponseTo r x := by
  cases hp : s.store.objects.cell p with
  | some r =>
    obtain ⟨pl, hpl⟩ := h.owned.live.1 hp
    rw [← mem_responses, hpl.no_response] at hx
    exact absurd hx List.not_mem_nil
  | none =>
    rcases h.owned.dead hp with hnil | ⟨r, hend⟩
    · simp [hnil] at hx
    · refine ⟨r, ?_⟩
      generalize s.store.story p = st at hend hx
      cases hend with
      | startFailed => exact ⟨List.mem_cons_self, Or.inl (by simpa using hx)⟩
      | answered q _ hq =>
        exact ⟨List.mem_cons_self, Or.inr (Or.inl ⟨q, hq, by simpa using hx⟩)⟩
      | cancelled k => exact ⟨List.mem_cons_self, Or.inr (Or.inr ⟨k, by simpa using hx⟩)⟩
      | closed | cancel | duplicate | thrown | drained | shutDown => simp at hx

/-- Also after a crash, the requests are those of a state in which the invariant holds. -/
theorem exists_inv (h : Reachable L Run.always s) : ∃ s₀, Inv s₀ ∧ s₀.store = s.store := by
  rcases sound h with hcrash | hinv
  · cases h with
    | start => simp [new] at hcrash
    | @step s₀ _ l hr _ hs =>
      have hinv : Inv s₀ := (sound hr).resolve_left fun hcrash => by
        simp [step_crashed hcrash] at hs
      exact ⟨s₀, hinv, (step_store_of_crash hinv hs hcrash).symm⟩
  · exact ⟨s, hinv, rfl⟩

/-- **Every response** that was sent is one of the three. -/
theorem sent_shape (h : Reachable L Run.always s) {x : Sent} (hx : .sent x ∈ s.store.story p) :
    ∃ r, .handed r ∈ s.store.story p ∧ ResponseTo r x := by
  obtain ⟨s₀, hinv, heq⟩ := exists_inv h
  rw [← heq] at hx ⊢
  exact hinv.responseTo hx

/-- A story is about one request. -/
theorem handed_unique (h : Reachable L Run.always s) {r r' : Request}
    (hr : .handed r ∈ s.store.story p) (hr' : .handed r' ∈ s.store.story p) : r = r' := by
  obtain ⟨s₀, hinv, heq⟩ := exists_inv h
  rw [← heq] at hr hr'
  exact hinv.handed_unique hr hr'

/-- The dialog at `u` was started for the request at `p`, `createUI` was called for it with the
strings of this request and has put the whole question on the screen if it fits, and `ret` and
`button` are all that came of it. -/
structure Said (C : LibcLimits) (E : UIPtr → Calls) (ls : List Label) (s : Agent) (id : RequestId)
    (p : RequestPtr) (d : RequestData) (u : UIPtr) (ret : ℤ) (button : Int32) : Prop where
  posted : ∀ ret' b, .post u ret' b ∈ ls ↔ ret' = ret ∧ b = button
  started : .started id p ∈ s.dialogs.story u
  created : (createUI C (E u) d.client d.user d.privilege none).1 = true
  shown : Fits C (E u) d → ∀ n, createUI C (E u) d.client d.user d.privilege none = (true, some n) →
    n.content.map CString.bytes = some (wholeQuestion (E u) d)

/-- The user has pressed one of the buttons that say yes. -/
structure SaidYes (C : LibcLimits) (E : UIPtr → Calls) (ls : List Label) (s : Agent)
    (id : RequestId) (p : RequestPtr) (d : RequestData) (u : UIPtr) (button : Int32) : Prop
    extends Said C E ls s id p d u NOTIFICATION_ERROR_NONE button where
  yes : button ∈ [4, 5, 6]

/-- **Every answer** about a request goes back to a dialog that `createUI` made from its three
strings, in any run that starts no dialog for the id of a queued response. -/
theorem said {ls : List Label}
    (hexec : Run.exec (step L) (Run.both (NoStaleResponse L) (Rendered C E L)) ls new = some s)
    {d : RequestData} (hclient : d.client.length ≤ L.maxSize) (huser : d.user.length ≤ L.maxSize)
    (hprivilege : d.privilege.length ≤ L.maxSize)
    (hhanded : .handed ⟨RT_Action, i, Translator.Plugin.requestToData d.client d.user d.privilege⟩ ∈
      s.store.story p) {r : Request} {q : Response} (hsent : .sent (answer r q) ∈ s.store.story p) :
    ∃ ret button, q.type = response ret button ∧ Said C E ls s i p d q.postedBy ret button := by
  have hr : Reachable L (Run.both (NoStaleResponse L) (Rendered C E L)) s := .of_exec .start hexec
  have hr' : Reachable L Run.always s := hr.mono fun _ _ _ => trivial
  have htold := recounted hexec
  obtain ⟨ret, button, hposted, htype⟩ := htold.sent p _ q hsent rfl
  obtain ⟨j, hstarted⟩ := attributed (fun _ _ h => h.1) hr p _ q hsent rfl
  obtain ⟨r', d', g, hr₁, hid, hd, hcreated⟩ := shown (fun _ _ h => h.2) hr _ j p hstarted
  obtain rfl := handed_unique hr' hr₁ hhanded
  obtain rfl : i = j := hid
  -- the strings that the dialog was given are those that the plugin wrote down
  have hdecoded := Translator.dataToRequest_requestToData L g d.client d.user d.privilege [] hclient
    huser hprivilege
  rw [List.append_nil, hd, Except.ok.injEq] at hdecoded
  subst hdecoded
  refine ⟨ret, button, htype, fun ret' b => ⟨fun hmem => ?_, ?_⟩, hstarted, hcreated,
    fun hfits n hn => content_of_fits hfits hn⟩
  · obtain ⟨rfl, rfl⟩ := htold.once _ _ _ _ _ hmem hposted
    exact ⟨rfl, rfl⟩
  · rintro ⟨rfl, rfl⟩
    exact hposted

end Agent

open Agent ByteText RequestType
open Agent.AskUINotificationBackend (response)

/-- **No access without a yes.** After any calls of the plugin and in any run of the agent that
starts no dialog for the id of a queued response: if the response about a request of a client, a
user and a privilege makes the plugins grant the access, then the user has said yes in a dialog that
was started for this request, with `createUI` called for exactly these three. The screen shows the
whole question about them if it fits. -/
theorem no_access_without_yes (P : PredefinedPolicyType) (A : CynaraApi)
    (xs : List AskUserPlugin.Call) : ∃ plugin, AskUserPlugin.new.calls P xs = some plugin ∧
      ∀ (C : LibcLimits) (E : UIPtr → Calls) (L : Limits) (ls : List Agent.Label) (s : Agent),
        Run.exec (Agent.step L) (Run.both (NoStaleResponse L) (Rendered C E L)) ls Agent.new =
          some s →
        ∀ (p : RequestPtr) (id : RequestId) (client user privilege : Bytes) (x : Sent),
          client.length ≤ L.maxSize → user.length ≤ L.maxSize → privilege.length ≤ L.maxSize →
          .handed ⟨RT_Action, id, Translator.Plugin.requestToData client user privilege⟩ ∈
            s.store.story p →
          .sent x ∈ s.store.story p → x.requestType = RT_Action →
        ∀ key before result plugin' session,
          plugin.update P key x.data before = some (.SUCCESS, result, plugin') →
          (result = ⟨P.ALLOW⟩ ∨ ClientPlugin.toResult A session result = A.ACCESS_ALLOWED) →
          ∃ u button, SaidYes C E ls s id p ⟨client, user, privilege⟩ u button := by
  obtain ⟨plugin, hcalls, hrem⟩ := AskUserPlugin.calls_remembers
    (P := P) AskUserPlugin.remembers_new xs
  refine ⟨plugin, hcalls, fun C E L ls s hexec p id client user privilege x hclient huser hprivilege
    hhanded hsent haction key before result plugin' session hupdate hgranted => ?_⟩
  have hr : Agent.Reachable L Run.always s := (Run.Reachable.of_exec .start hexec).mono
    fun _ _ (_ : Run.both (NoStaleResponse L) (Rendered C E L) _ _) => trivial
  -- what the outcome of a dialog says about the access
  have law : ∀ {ret button}, x.data = pluginData (response ret button) →
      ret = NOTIFICATION_ERROR_NONE ∧ button ∈ [4, 5, 6] := by
    intro ret button hdata
    obtain ⟨result', plugin'', hupdate', hstep⟩ := consented A hrem ret button key before
    rw [← hdata, hupdate] at hupdate'
    simp only [Option.some.injEq, Prod.mk.injEq, true_and] at hupdate'
    exact (hstep.law.granted session).1 (hupdate'.1 ▸ hgranted)
  obtain ⟨r, hr₀, rfl | ⟨q, hq, rfl⟩ | ⟨k, rfl⟩⟩ := sent_shape hr hsent
  · -- the dialog could not be started, which is like an error that it reports
    have hdata : (startFailure r).data = pluginData (response 1 0) := rfl
    exact absurd (law hdata).1 (by decide)
  · obtain ⟨ret, button, htype, hsaid⟩ := said hexec (d := ⟨client, user, privilege⟩) hclient huser
      hprivilege hhanded hsent
    obtain ⟨rfl, hyes⟩ := law (congrArg pluginData htype)
    exact ⟨q.postedBy, button, hsaid, hyes⟩
  · simp [cancellation] at haction

/-- The user 5001 lets an application use the camera for the session, with the button 5. -/
theorem no_access_without_yes_camera : ∃ (ls : List Agent.Label)
    (s : Agent) (x : Sent) (u : UIPtr) (button : Int32), .sent x ∈ s.store.story 0 ∧
      SaidYes .glibc (fun _ => Calls.en) ls s 1 0 ⟨text "app", text "5001", text "camera"⟩ u
        button := by
  obtain ⟨s, hexec, hst⟩ : ∃ s,
      Run.exec (Agent.step .lp64) (Run.both (NoStaleResponse .lp64)
        (Rendered .glibc (fun _ => Calls.en) .lp64))
        [tick, .talker (.initialized true), .talker (.received .ACTION 1
          (Translator.Plugin.requestToData (text "app") (text "5001") (text "camera"))), tick, tick,
          tick, tick, .post 0 0 5, tick, tick] Agent.new = some s ∧
      s.store.story 0 = [.handed ⟨RT_Action, 1, Translator.Plugin.requestToData (text "app")
        (text "5001") (text "camera")⟩, .popped, .recorded,
        .sent (answer ⟨RT_Action, 1, []⟩ ⟨1, .URT_YES_SESSION, 0⟩), .deleted] :=
    Option.map_eq_some_iff.1 (by decide +kernel)
  obtain ⟨plugin, hcalls, hlaw⟩ := no_access_without_yes .cynara .cynara []
  obtain rfl := Option.some.inj hcalls
  have hsent : .sent (answer ⟨RT_Action, 1, []⟩ ⟨1, .URT_YES_SESSION, 0⟩) ∈ s.store.story 0 := by
    simp [hst]
  obtain ⟨result, plugin', hupdate, hstep⟩ := consented (P := .cynara) .cynara
    AskUserPlugin.remembers_new 0 5 ⟨text "app", text "5001", text "camera"⟩ ⟨0⟩
  obtain ⟨u, button, hsaid⟩ := hlaw .glibc (fun _ => Calls.en) .lp64 _ s hexec 0 1 (text "app")
    (text "5001") (text "camera") _ (by decide) (by decide) (by decide) (by simp [hst])
    hsent rfl _ _ result plugin' [] hupdate ((hstep.law.granted []).2 ⟨rfl, by decide⟩)
  exact ⟨_, s, _, u, button, hsent, hsaid⟩

end AskUser
