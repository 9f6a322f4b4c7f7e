import AskUser.MainSteps

/-!
# What a dismissal leaves

`dismissUI` and `cleanupUIThreads` go to some of the dialogs, and what becomes of each is decided by
the dialog alone (`dismissed`): one whose thread has finished is gone, any other is marked. `Swept`
says so of a whole map, and `cleanupUIThreads_swept` also what the function returns: `true` exactly
if every dialog was dismissed before and has finished, so that none is left.
-/

namespace AskUser.Agent
open Objects Fallible

/-- What `dismiss` leaves of a dialog, together with the `erase` that follows. -/
def AskUINotificationBackend.dismissed (ui : AskUINotificationBackend) :
    Option AskUINotificationBackend :=
  if ui.thread = .finished then none else some { ui with dismissing := true }

/-- `cleanupUIThreads` erases a dialog that is done. -/
def AskUINotificationBackend.Done (ui : AskUINotificationBackend) : Prop :=
  ui.dismissing ∧ ui.thread = .finished

instance (ui : AskUINotificationBackend) : Decidable ui.Done :=
  inferInstanceAs (Decidable (_ ∧ _))

namespace Dialogs

/-- The selected dialogs were dismissed, and the others left alone. -/
def Swept (d d' : Dialogs) (selected : UIPtr → AskUINotificationBackend → Prop) : Prop :=
  ∀ u, (∀ ui, d.objects.cell u = some ui → selected u ui → d'.objects.cell u = ui.dismissed) ∧
    (∀ ui, d.objects.cell u = some ui → ¬ selected u ui → d'.objects.cell u = some ui) ∧
    (d.objects.cell u = none → d'.objects.cell u = none)

variable {d d' d'' : Dialogs} {u : UIPtr} {ui : AskUINotificationBackend}
  {selected selected' : UIPtr → AskUINotificationBackend → Prop}

theorem Swept.refl (h : ∀ u ui, d.objects.cell u = some ui → ¬ selected u ui) :
    d.Swept d selected :=
  fun u => ⟨fun ui hu hsel => absurd hsel (h u ui hu), fun _ hu _ => hu, id⟩

/-- A dialog that is left comes from one that was there. -/
theorem Swept.of_left (h : d.Swept d' selected) {ui' : AskUINotificationBackend}
    (hu' : d'.objects.cell u = some ui') : ∃ ui, d.objects.cell u = some ui ∧
      (selected u ui ∧ ui.thread ≠ .finished ∧ ui' = { ui with dismissing := true } ∨
        ¬ selected u ui ∧ ui' = ui) := by
  obtain ⟨hsel, hnot, hnone⟩ := h u
  cases hu : d.objects.cell u with
  | none =>
    rw [hnone hu] at hu'
    exact absurd hu' (by simp)
  | some ui =>
    refine ⟨ui, rfl, ?_⟩
    by_cases hs : selected u ui
    · rw [hsel ui hu hs, AskUINotificationBackend.dismissed] at hu'
      split_ifs at hu' with ht
      exact Or.inl ⟨hs, ht, (Option.some.inj hu').symm⟩
    · rw [hnot ui hu hs] at hu'
      exact Or.inr ⟨hs, (Option.some.inj hu').symm⟩

/-- A dialog that is joined and erased. -/
theorem swept_close (hu : d.objects.cell u = some ui) (ht : ui.thread = .finished) :
    d.Swept (d.close u ui) fun v _ => v = u := by
  intro v
  rw [cell_close]
  by_cases hv : v = u
  · subst hv
    rw [if_pos rfl]
    refine ⟨fun ui' hu' _ => ?_, fun _ _ hno => absurd rfl hno, fun _ => rfl⟩
    obtain rfl := Option.some.inj (hu.symm.trans hu')
    rw [AskUINotificationBackend.dismissed, if_pos ht]
  · rw [if_neg hv]
    exact ⟨fun _ _ he => absurd he hv, fun _ hu' _ => hu', id⟩

/-- A dialog that is marked. -/
theorem swept_mark (hu : d.objects.cell u = some ui) (ht : ui.thread ≠ .finished) :
    d.Swept (d.mark u ui) fun v _ => v = u := by
  intro v
  show (∀ ui', _ → _ → (d.objects.modify u fun _ => { ui with dismissing := true }).cell v = _) ∧ _
  by_cases hv : v = u
  · subst hv
    refine ⟨fun ui' hu' _ => ?_, fun _ _ hno => absurd rfl hno, fun hnone => ?_⟩
    · obtain rfl := Option.some.inj (hu.symm.trans hu')
      rw [AskUINotificationBackend.dismissed, if_neg ht, Heap.cell_modify, if_pos rfl, hu]
      rfl
    · rw [hu] at hnone
      exact absurd hnone (by simp)
  · have hcell : (d.mark u ui).objects.cell v = d.objects.cell v := by
      simp [mark, put, hv]
    exact ⟨fun _ _ he => absurd he hv, fun _ hu' _ => hcell.trans hu', fun h => hcell.trans h⟩

/-- The same selection, said otherwise. -/
theorem Swept.congr (h : d.Swept d' selected)
    (hsel : ∀ u ui, d.objects.cell u = some ui → (selected' u ui ↔ selected u ui)) :
    d.Swept d' selected' := fun u =>
  ⟨fun ui hu hs => (h u).1 ui hu ((hsel u ui hu).1 hs),
    fun ui hu hs => (h u).2.1 ui hu fun hs' => hs ((hsel u ui hu).2 hs'), (h u).2.2⟩

/-- One sweep after another, over other dialogs. -/
theorem Swept.trans {ps qs : UIPtr → Prop} (h : d.Swept d' fun v _ => ps v)
    (h' : d'.Swept d'' fun v ui => qs v ∧ selected v ui) (hdisj : ∀ v, ps v → ¬ qs v) :
    d.Swept d'' fun v ui => ps v ∨ qs v ∧ selected v ui := by
  intro v
  obtain ⟨hsel, hnot, hnone⟩ := h v
  obtain ⟨hsel', hnot', hnone'⟩ := h' v
  by_cases hp : ps v
  · refine ⟨fun ui hu _ => ?_, fun _ _ hno => absurd (Or.inl hp) hno,
      fun hu => hnone' (hnone hu)⟩
    cases hd : ui.dismissed with
    | none => exact hnone' ((hsel ui hu hp).trans hd)
    | some ui' => exact hnot' ui' ((hsel ui hu hp).trans hd) fun hq => hdisj v hp hq.1
  · have hsame : ∀ ui, d.objects.cell v = some ui → d'.objects.cell v = some ui :=
      fun ui hu => hnot ui hu hp
    refine ⟨fun ui hu hs => hsel' ui (hsame ui hu) (hs.resolve_left hp), fun ui hu hs => ?_,
      fun hu => hnone' (hnone hu)⟩
    exact hnot' ui (hsame ui hu) fun hq => hs (Or.inr hq)

end Dialogs

/-! ### The functions of the agent -/

variable {s : Agent} {u : UIPtr} {ui : AskUINotificationBackend}

open Dialogs

/-- `dismissUI` dismisses the dialog with the given id. -/
theorem dismissUI_swept (hw : s.dialogs.Wired) (id : RequestId) :
    ∃ d, dismissUI id s = .ok () { s with dialogs := d } ∧ d.Wired ∧
      s.dialogs.Swept d fun _ ui => ui.requestId = id := by
  unfold dismissUI
  rw [get_bind]
  cases hl : s.dialogs.UIs.lookup id with
  | none =>
    refine ⟨s.dialogs, rfl, hw, .refl fun u ui hu hid => ?_⟩
    rw [← hid, hw.lookup_unique hu] at hl
    exact absurd hl (by simp)
  | some u =>
    obtain ⟨ui, hu, hid⟩ := hw.stored.1 hl
    -- the dialog with the id is the one that the map has for it
    have hsel : ∀ v uv, s.dialogs.objects.cell v = some uv → (uv.requestId = id ↔ v = u) := by
      intro v uv hv
      refine ⟨fun hidv => ?_, fun hvu => ?_⟩
      · exact Option.some.inj ((hidv ▸ hw.lookup_unique hv).symm.trans hl)
      · obtain rfl : uv = ui := Option.some.inj (hv.symm.trans (hvu ▸ hu))
        exact hid
    by_cases ht : ui.thread = .finished
    · obtain ⟨s₁, hdismiss, herase⟩ := dismiss_finished hu ht
      refine ⟨s.dialogs.close u ui, ?_, hw.close hu, (swept_close hu ht).congr hsel⟩
      simp only
      rw [bind_ok hdismiss, ← hid]
      exact herase
    · refine ⟨s.dialogs.mark u ui, ?_, hw.mark hu, (swept_mark hu ht).congr hsel⟩
      simp only
      rw [bind_ok (dismiss_unfinished hu (hw.joinable hu) ht)]
      rfl

/-- The dialogs of some entries of the map are all done. -/
def AllDone (d : Dialogs) (es : List (Sigma fun _ : RequestId => UIPtr)) : Prop :=
  ∀ e ∈ es, ∀ ui, d.objects.cell e.2 = some ui → ui.Done

theorem AllDone.congr {d d' : Dialogs} {es : List (Sigma fun _ : RequestId => UIPtr)}
    (h : ∀ e ∈ es, d'.objects.cell e.2 = d.objects.cell e.2) : AllDone d' es ↔ AllDone d es :=
  forall₂_congr fun e he => by rw [h e he]

theorem allDone_cons {d : Dialogs} {id : RequestId} {es : List (Sigma fun _ : RequestId => UIPtr)}
    (hu : d.objects.cell u = some ui) : AllDone d (⟨id, u⟩ :: es) ↔ ui.Done ∧ AllDone d es := by
  simp [AllDone, hu]

/-- The loop of `cleanupUIThreads` dismisses those of its dialogs that were dismissed before; its
variable stays `true` if all of them are done. -/
theorem cleanupLoop_swept (es : List (Sigma fun _ : RequestId => UIPtr)) (ret : Bool)
    (hw : s.dialogs.Wired) (hes : ∀ e ∈ es, s.dialogs.UIs.lookup e.1 = some e.2)
    (hnodup : (es.map Sigma.fst).Nodup) :
    ∃ ret' d, cleanupLoop es ret s = .ok ret' { s with dialogs := d } ∧ d.Wired ∧
      s.dialogs.Swept d (fun v ui => v ∈ es.map Sigma.snd ∧ ui.dismissing) ∧
      (ret' = true ↔ ret = true ∧ AllDone s.dialogs es) := by
  induction es generalizing s ret with
  | nil =>
    refine ⟨ret, s.dialogs, rfl, hw, .refl fun _ _ _ hsel => ?_, by simp [AllDone]⟩
    exact absurd hsel.1 List.not_mem_nil
  | cons e es ih =>
    obtain ⟨id, u⟩ := e
    simp only [List.map_cons, List.nodup_cons] at hnodup
    obtain ⟨ui, hu, rfl⟩ := hw.stored.1 (hes _ List.mem_cons_self)
    -- the dialogs that are still ahead are others
    have hkeys : ∀ e ∈ es, e.1 ≠ ui.requestId := fun e he heq =>
      hnodup.1 (heq ▸ List.mem_map_of_mem he)
    have hother : ∀ e ∈ es, e.2 ≠ u := fun e he heq => by
      obtain ⟨ui', hu', hid⟩ := hw.stored.1 (hes e (List.mem_cons_of_mem _ he))
      obtain rfl := Option.some.inj (hu.symm.trans (heq ▸ hu'))
      exact hkeys e he hid.symm
    have hdisj : ∀ v, v = u → v ∉ es.map Sigma.snd := by
      rintro v rfl hmem
      obtain ⟨e, he, heq⟩ := List.mem_map.1 hmem
      exact hother e he heq
    -- one that was dismissed is swept, and then those ahead
    have step : ∀ {d : Dialogs} (ret₁ : Bool), ui.dismissing = true → d.Wired →
        s.dialogs.Swept d (fun v _ => v = u) →
        (∀ e ∈ es, d.UIs.lookup e.1 = some e.2) →
        ∃ ret' d', cleanupLoop es ret₁ { s with dialogs := d } =
            .ok ret' { s with dialogs := d' } ∧ d'.Wired ∧
          s.dialogs.Swept d' (fun v ui => v ∈ u :: es.map Sigma.snd ∧ ui.dismissing) ∧
          (ret' = true ↔ ret₁ = true ∧ AllDone s.dialogs es) := by
      intro d ret₁ hdis hd hswept hes'
      obtain ⟨ret', d', hrun, hw', hswept', hret⟩ := ih (s := { s with dialogs := d }) ret₁ hd hes'
        hnodup.2
      have hcells : ∀ e ∈ es, d.objects.cell e.2 = s.dialogs.objects.cell e.2 := by
        intro e he
        obtain ⟨ui', hu', -⟩ := hw.stored.1 (hes e (List.mem_cons_of_mem _ he))
        rw [(hswept e.2).2.1 ui' hu' (hother e he), hu']
      refine ⟨ret', d', hrun, hw', (hswept.trans hswept' hdisj).congr fun v uv hv => ?_,
        hret.trans (and_congr_right fun _ => AllDone.congr hcells)⟩
      rw [List.mem_cons]
      by_cases hvu : v = u
      · obtain rfl := Option.some.inj (hu.symm.trans (hvu ▸ hv))
        simp [hvu, hdis]
      · simp [hvu]
    simp only [cleanupLoop, List.map_cons]
    rw [bind_ok (dialog_run hu)]
    by_cases hdis : ui.dismissing = true
    · by_cases ht : ui.thread = .finished
      · obtain ⟨s₁, hdismiss, herase⟩ := dismiss_finished hu ht
        obtain ⟨ret', d', hrun, hw', hswept, hret⟩ := step ret hdis (hw.close hu)
          (swept_close hu ht) fun e he => (AList.lookup_erase_ne (hkeys e he)).trans
            (hes e (List.mem_cons_of_mem _ he))
        refine ⟨ret', d', ?_, hw', hswept, hret.trans ?_⟩
        · rw [if_pos hdis, bind_ok hdismiss, if_pos rfl, bind_ok herase]
          exact hrun
        · rw [allDone_cons hu]
          simp [AskUINotificationBackend.Done, hdis, ht]
      · obtain ⟨ret', d', hrun, hw', hswept, hret⟩ := step false hdis (hw.mark hu)
          (swept_mark hu ht) fun e he => hes e (List.mem_cons_of_mem _ he)
        refine ⟨ret', d', ?_, hw', hswept, hret.trans ?_⟩
        · rw [if_pos hdis, bind_ok (dismiss_unfinished hu (hw.joinable hu) ht)]
          exact hrun
        · rw [allDone_cons hu]
          simp [AskUINotificationBackend.Done, ht]
    · obtain ⟨ret', d', hrun, hw', hswept, hret⟩ := ih false hw
        (fun e he => hes e (List.mem_cons_of_mem _ he)) hnodup.2
      refine ⟨ret', d', ?_, hw', hswept.congr fun v uv hv => ?_, hret.trans ?_⟩
      · rw [if_neg hdis]
        exact hrun
      · rw [List.mem_cons]
        by_cases hvu : v = u
        · obtain rfl := Option.some.inj (hu.symm.trans (hvu ▸ hv))
          simp [hdis]
        · simp [hvu]
      · rw [allDone_cons hu]
        simp [AskUINotificationBackend.Done, hdis]

/-- **A pass of `cleanupUIThreads`**. -/
theorem cleanupUIThreads_swept (hw : s.dialogs.Wired) :
    ∃ ret d, cleanupUIThreads s = .ok ret { s with dialogs := d } ∧ d.Wired ∧
      s.dialogs.Swept d (fun _ ui => ui.dismissing) ∧
      (ret = true ↔ ∀ u ui, s.dialogs.objects.cell u = some ui → ui.Done) := by
  unfold cleanupUIThreads
  rw [get_bind]
  obtain ⟨ret, d, hrun, hd, hswept, hret⟩ := cleanupLoop_swept s.dialogs.UIs.entries true hw
    (fun e he => AList.mem_lookup_iff.2 he) s.dialogs.UIs.nodupKeys
  have hmem : ∀ {u ui}, s.dialogs.objects.cell u = some ui →
      ⟨ui.requestId, u⟩ ∈ s.dialogs.UIs.entries := fun hu =>
    AList.mem_lookup_iff.1 (hw.lookup_unique hu)
  refine ⟨ret, d, hrun, hd, hswept.congr fun u ui hu => ?_, hret.trans ⟨fun h u ui hu => ?_,
    fun h => ⟨rfl, fun e _ ui hu => h e.2 ui hu⟩⟩⟩
  · exact (and_iff_right (List.mem_map_of_mem (hmem hu))).symm
  · exact h.2 _ (hmem hu) ui hu

/-! ### The steps of the main thread that dismiss dialogs -/

section Steps

variable {L : Limits} {c : Choice} {q : Response} {p p' : RequestPtr} {r : Request}

/-- `processUIResponse` ends with `dismissUI`. -/
theorem processUIResponse_eq (h : Inv s) :
    ∃ b, processUIResponse q s = dismissUI q.id { s with store := b } := by
  unfold processUIResponse
  rw [get_bind]
  cases hl : s.store.requests.lookup q.id with
  | none => exact ⟨s.store, rfl⟩
  | some p =>
    obtain ⟨r, hp, -⟩ := h.pending_live hl
    refine ⟨((s.store.note p (.sent (answer r q))).free p).erase q.id, ?_⟩
    simp only
    rw [bind_ok (request_run hp), sendResponse, onRequests_bind]
    have hp' : ({ s with store := s.store.note p (.sent (answer r q)) } : Agent).store.objects.cell
      p = some r := hp
    exact bind_ok (delete_run hp')

theorem mainStep_response_swept (h : Inv s) (hpc : s.pc = .response q) :
    s.dialogs.Swept (mainStep L c s).dialogs fun _ ui => ui.requestId = q.id := by
  obtain ⟨b, heq⟩ := processUIResponse_eq (q := q) h
  obtain ⟨d, hrun, -, hswept⟩ := dismissUI_swept (s := { s with store := b }) h.wired q.id
  simp only [mainStep, hpc, call]
  rw [bind_ok (heq.trans hrun)]
  exact hswept

theorem mainStep_cleanup_swept (h : Inv s) (hpc : s.pc = .cleanup) :
    s.dialogs.Swept (mainStep L c s).dialogs fun _ ui => ui.dismissing := by
  obtain ⟨ret, d, hrun, -, hswept, -⟩ := cleanupUIThreads_swept h.wired
  simp only [mainStep, hpc, call]
  rw [bind_ok hrun]
  exact hswept

theorem mainStep_cancel_swept (h : Inv s) (hpc : s.pc = .request p)
    (hp : s.store.objects.cell p = some r) (hcancel : r.type = .RT_Cancel)
    (hl : s.store.requests.lookup r.id = some p') :
    s.dialogs.Swept (mainStep L c s).dialogs fun _ ui => ui.requestId = r.id := by
  obtain ⟨rq, hq, -, -, -, hne⟩ := h.pending_live hl
  have hqp : p ≠ p' := fun he => hne (by rw [hpc, he]; rfl)
  let b := ((s.store.free p').erase r.id).note p' (.sent ⟨r.type, r.id, [], .cancel p⟩)
  obtain ⟨d, hdismiss, -, hswept⟩ := dismissUI_swept (s := { s with store := b }) h.wired r.id
  have hp' : ((s.store.free p').erase r.id).objects.cell p = some r := by
    simpa [hqp] using hp
  have hrun : processCynaraRequest L c p s =
      .ok () { s with store := b.free p, dialogs := d } := by
    refine withUniquePtr_deletes (r := r) { s with store := b, dialogs := d } ?_ hp'
    rw [bind_ok (request_run hp), get_bind]
    simp only [hl, if_pos hcancel]
    rw [bind_ok (delete_run hq), onRequests_bind, bind_ok (request_run hp'), sendResponse,
      onRequests_bind, bind_ok hdismiss]
    rfl
  simp only [mainStep, hpc, call]
  rw [bind_ok (request_run hp), if_neg (by simp [hcancel]), bind_ok hrun]
  exact hswept

/-- What a step of the main thread does to the dialogs that there are: it goes over some of them, or
opens another one. -/
theorem mainStep_cells (h : Inv s) (hrun : s.pc.isFinal = false)
    (hrun' : (mainStep L c s).pc.isFinal = false) :
    (∃ selected, s.dialogs.Swept (mainStep L c s).dialogs selected) ∨
      ∀ u, u ≠ s.dialogs.objects.size →
        (mainStep L c s).dialogs.objects.cell u = s.dialogs.objects.cell u := by
  have hs := mainStep_cases (L := L) (c := c) h hrun
  have hresponse : ∀ q, s.pc = .response q → s.dialogs.Swept (mainStep L c s).dialogs
      fun _ ui => ui.requestId = q.id := fun q hpc => mainStep_response_swept h hpc
  have hcleanup : s.pc = .cleanup → s.dialogs.Swept (mainStep L c s).dialogs
      fun _ ui => ui.dismissing := fun hpc => mainStep_cleanup_swept h hpc
  have hcancel : ∀ p r q, s.pc = .request p → s.store.objects.cell p = some r →
      r.type = .RT_Cancel → s.store.requests.lookup r.id = some q →
      s.dialogs.Swept (mainStep L c s).dialogs fun _ ui => ui.requestId = r.id :=
    fun p r q hpc hp hr hl => mainStep_cancel_swept h hpc hp hr hl
  generalize mainStep L c s = s' at *
  cases hs with
  | clashed | exited | finished => simp [Pc.isFinal] at hrun'
  | start | moves | popped | closed | duplicate | unknownCancel | thrown | poppedResponse =>
    exact Or.inr fun _ _ => rfl
  | startFailed => exact Or.inr fun _ _ => Dialogs.cell_discard
  | recorded =>
    refine Or.inr fun u hu => ?_
    show (s.dialogs.opened _ _ _).objects.cell u = _
    rw [Dialogs.cell_opened, if_neg hu]
  | cancelled hpc hp hr hl => exact Or.inl ⟨_, hcancel _ _ _ hpc hp hr hl⟩
  | answered hpc | unmatched hpc => exact Or.inl ⟨_, hresponse _ hpc⟩
  | cleaned hpc => exact Or.inl ⟨_, hcleanup hpc⟩

/-- A dialog that the main thread leaves keeps its thread. -/
theorem mainStep_thread (h : Inv s) (hrun : s.pc.isFinal = false)
    (hrun' : (mainStep L c s).pc.isFinal = false) {u : UIPtr} {ui ui' : AskUINotificationBackend}
    (hu : s.dialogs.objects.cell u = some ui)
    (hu' : (mainStep L c s).dialogs.objects.cell u = some ui') : ui'.thread = ui.thread := by
  rcases mainStep_cells h hrun hrun' with ⟨selected, hswept⟩ | hsame
  · obtain ⟨ui₀, hu₀, hcase⟩ := hswept.of_left hu'
    obtain rfl := Option.some.inj (hu.symm.trans hu₀)
    rcases hcase with ⟨-, -, rfl⟩ | ⟨-, rfl⟩
    · rfl
    · rfl
  · rw [hsame u (Nat.ne_of_lt (Heap.lt_size hu)), hu] at hu'
    rw [Option.some.inj hu']

/-- And it leaves every dialog whose thread has not finished. -/
theorem mainStep_unfinished (h : Inv s) (hrun : s.pc.isFinal = false)
    (hrun' : (mainStep L c s).pc.isFinal = false) {u : UIPtr} {ui : AskUINotificationBackend}
    (hu : s.dialogs.objects.cell u = some ui) (ht : ui.thread ≠ .finished) :
    ∃ ui', (mainStep L c s).dialogs.objects.cell u = some ui' ∧ ui'.thread = ui.thread := by
  have hleft : ∃ ui', (mainStep L c s).dialogs.objects.cell u = some ui' := by
    rcases mainStep_cells h hrun hrun' with ⟨selected, hswept⟩ | hsame
    · by_cases hsel : selected u ui
      · refine ⟨{ ui with dismissing := true }, ?_⟩
        rw [(hswept u).1 ui hu hsel, AskUINotificationBackend.dismissed, if_neg ht]
      · exact ⟨ui, (hswept u).2.1 ui hu hsel⟩
    · exact ⟨ui, (hsame u (Nat.ne_of_lt (Heap.lt_size hu))).trans hu⟩
  obtain ⟨ui', hu'⟩ := hleft
  exact ⟨ui', hu', mainStep_thread h hrun hrun' hu hu'⟩

end Steps

end AskUser.Agent
