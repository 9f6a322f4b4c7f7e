import AskUser.AgentSteps
import AskUser.Lib.Fallible

/-!
# The life of a dialog

A dialog whose thread was started is in `m_UIs` under its id until the thread is joined, and then it
is destroyed at once. `Wired` says so: the map holds exactly the live dialogs, and the stories are
those of dialogs that are open, or never were started, or were joined and destroyed.

* `Wired.opened`, `Wired.discard`, `Wired.put` and `Wired.close` are the changes that keep this;
* `dismissUI_spec` and `cleanupUIThreads_spec` say what the agent's two functions do to it, and
  `Evolves` which dialogs they leave alone.
-/

namespace AskUser.Agent
open RequestType Objects Fallible

theorem onDialogs_bind {β : Type} {f : Dialogs → Dialogs} {g : Unit → AgentM β} {s : Agent} :
    (onDialogs f >>= g) s = g () { s with dialogs := f s.dialogs } := rfl

theorem onRequests_bind {β : Type} {f : Requests → Requests} {g : Unit → AgentM β} {s : Agent} :
    (onRequests f >>= g) s = g () { s with store := f s.store } := rfl

namespace Dialogs

/-! ### Changes -/

/-- A dialog whose thread was just started, not stored yet. -/
def start (d : Dialogs) (c : Choice) (id : RequestId) (p : RequestPtr) : Dialogs :=
  let ui := AskUINotificationBackend.new c.requestId
  ((d.alloc ui).put d.objects.size { ui with requestId := id, thread := .running }).note
    d.objects.size (.started id p)

/-- A dialog whose thread was just started, stored under its id. -/
def opened (d : Dialogs) (c : Choice) (id : RequestId) (p : RequestPtr) : Dialogs :=
  (d.start c id p).insert id d.objects.size

/-- A dialog that was created and could not be started. -/
def discard (d : Dialogs) (c : Choice) : Dialogs := (d.alloc (.new c.requestId)).free d.objects.size

/-- `dismiss` of a dialog whose thread has not finished. -/
def mark (d : Dialogs) (u : UIPtr) (ui : AskUINotificationBackend) : Dialogs :=
  d.put u { ui with dismissing := true }

/-- A dialog is joined, and its entry erased. -/
def close (d : Dialogs) (u : UIPtr) (ui : AskUINotificationBackend) : Dialogs :=
  (((d.put u { ui with dismissing := true, thread := .joined }).note u .joined).erase
    ui.requestId).free u

section Changes

variable {d : Dialogs} {c : Choice} {id : RequestId} {p : RequestPtr} {u v : UIPtr}
  {ui : AskUINotificationBackend}

@[simp] theorem cell_start : (d.start c id p).objects.cell v =
    if v = d.objects.size then some ⟨id, false, .running⟩ else d.objects.cell v := by
  by_cases hv : v = d.objects.size <;>
    simp [start, note, put, alloc, hv, AskUINotificationBackend.new]

@[simp] theorem story_start : (d.start c id p).story v =
    if v = d.objects.size then d.story v ++ [.started id p] else d.story v := by
  by_cases hv : v = d.objects.size <;> simp [start, note, put, alloc, story, hv]

@[simp] theorem cell_opened : (d.opened c id p).objects.cell v =
    if v = d.objects.size then some ⟨id, false, .running⟩ else d.objects.cell v :=
  cell_start (p := p)

@[simp] theorem story_opened : (d.opened c id p).story v =
    if v = d.objects.size then d.story v ++ [.started id p] else d.story v :=
  story_start (c := c)

@[simp] theorem UIs_opened : (d.opened c id p).UIs = d.UIs.insert id d.objects.size := rfl

@[simp] theorem story_free : (d.free u).story v =
    if v = u then d.story v ++ [.destroyed] else d.story v := by
  by_cases hv : v = u <;> simp [free, story, hv]

@[simp] theorem cell_discard : (d.discard c).objects.cell v = d.objects.cell v := by
  by_cases hv : v = d.objects.size <;> simp [discard, free, alloc, hv]

@[simp] theorem story_discard : (d.discard c).story v =
    if v = d.objects.size then d.story v ++ [.destroyed] else d.story v := by
  by_cases hv : v = d.objects.size <;> simp [discard, free, alloc, story, hv]

@[simp] theorem UIs_close : (d.close u ui).UIs = d.UIs.erase ui.requestId := rfl

@[simp] theorem cell_close : (d.close u ui).objects.cell v =
    if v = u then none else d.objects.cell v := by
  by_cases hv : v = u <;> simp [close, free, erase, note, put, hv]

@[simp] theorem story_close : (d.close u ui).story v =
    if v = u then d.story v ++ [.joined, .destroyed] else d.story v := by
  by_cases hv : v = u <;> simp [close, free, erase, note, put, story, hv]

end Changes

/-- The map holds exactly the live dialogs, each of them has a thread to join, and no story says
that a started thread was left unjoined. -/
structure Wired (d : Dialogs) : Prop where
  stored : ∀ {i u}, d.UIs.lookup i = some u ↔
    ∃ ui, d.objects.cell u = some ui ∧ ui.requestId = i
  joinable : ∀ {u ui}, d.objects.cell u = some ui → ui.joinable
  live : ∀ {u ui}, d.objects.cell u = some ui → ∃ p, d.story u = [.started ui.requestId p]
  gone : ∀ {u}, d.objects.cell u = none → d.story u = [] ∨ d.story u = [.destroyed] ∨
    ∃ i p, d.story u = [.started i p, .joined, .destroyed]
  unborn : ∀ {u}, d.objects.size ≤ u → d.story u = []

/-- The dialogs that are not `touched` are as before, and no story is rewritten. -/
structure Evolves (d d' : Dialogs) (touched : AskUINotificationBackend → Prop) : Prop where
  cell : ∀ {u ui}, d.objects.cell u = some ui → ¬ touched ui → d'.objects.cell u = some ui
  story : ∀ u, d.story u <+: d'.story u

variable {d d' d'' : Dialogs} {u : UIPtr} {ui : AskUINotificationBackend}
  {touched : AskUINotificationBackend → Prop}

theorem Evolves.refl (d : Dialogs) (touched : AskUINotificationBackend → Prop) :
    d.Evolves d touched :=
  ⟨fun h _ => h, fun _ => List.prefix_rfl⟩

theorem Evolves.trans (h : d.Evolves d' touched) (h' : d'.Evolves d'' touched) :
    d.Evolves d'' touched :=
  ⟨fun hu ht => h'.cell (h.cell hu ht) ht, fun u => (h.story u).trans (h'.story u)⟩

theorem wired_new : Wired ⟨.empty, ∅, .empty⟩ where
  stored := by simp
  joinable := by simp
  live := by simp
  gone := fun _ => Or.inl rfl
  unborn := fun _ => rfl

namespace Wired

theorem lookup_unique (h : d.Wired) (hu : d.objects.cell u = some ui) :
    d.UIs.lookup ui.requestId = some u := h.stored.2 ⟨ui, hu, rfl⟩

/-- A change of one dialog that keeps its id and a thread to join. -/
theorem put (h : d.Wired) (hu : d.objects.cell u = some ui) {ui' : AskUINotificationBackend}
    (hid : ui'.requestId = ui.requestId) (hj : ui'.joinable) : (d.put u ui').Wired := by
  refine ⟨fun {i v} => ?_, fun {v uv} hv => ?_, fun {v uv} hv => ?_, fun {v} hv => ?_, h.unborn⟩
  · by_cases hvu : v = u
    · subst hvu
      simp [Dialogs.put, h.stored, hu, hid]
    · simp [Dialogs.put, h.stored, hvu]
  · by_cases hvu : v = u
    · subst hvu
      simp only [Dialogs.put, Heap.cell_modify, if_true, hu, Option.map_some,
        Option.some.injEq] at hv
      exact hv ▸ hj
    · simp only [Dialogs.put, Heap.cell_modify, hvu, if_false] at hv
      exact h.joinable hv
  · by_cases hvu : v = u
    · subst hvu
      simp only [Dialogs.put, Heap.cell_modify, if_true, hu, Option.map_some,
        Option.some.injEq] at hv
      rw [← hv, hid]
      exact h.live hu
    · simp only [Dialogs.put, Heap.cell_modify, hvu, if_false] at hv
      exact h.live hv
  · by_cases hvu : v = u
    · subst hvu
      simp [Dialogs.put, hu] at hv
    · simp only [Dialogs.put, Heap.cell_modify, hvu, if_false] at hv
      exact h.gone hv

theorem mark (h : d.Wired) (hu : d.objects.cell u = some ui) : (d.mark u ui).Wired :=
  h.put hu rfl (by simpa [AskUINotificationBackend.joinable] using h.joinable hu)

theorem close (h : d.Wired) (hu : d.objects.cell u = some ui) : (d.close u ui).Wired := by
  refine ⟨fun {i v} => ?_, fun {v uv} hv => ?_, fun {v uv} hv => ?_, fun {v} hv => ?_,
    fun {v} hv => ?_⟩
  · rw [UIs_close, cell_close]
    by_cases hi : i = ui.requestId
    · subst hi
      rw [AList.lookup_erase]
      refine iff_of_false (by simp) ?_
      rintro ⟨uv, huv, hid⟩
      -- another live dialog with the id would be under it in the map, as `u` is
      by_cases hvu : v = u
      · simp [hvu] at huv
      · rw [if_neg hvu] at huv
        have := (h.lookup_unique huv).symm.trans (hid ▸ h.lookup_unique hu)
        exact hvu (Option.some.inj this)
    · rw [AList.lookup_erase_ne hi, h.stored]
      by_cases hvu : v = u
      · subst hvu
        simp [hu, Ne.symm hi]
      · simp [hvu]
  · rw [cell_close] at hv
    split_ifs at hv
    exact h.joinable hv
  · rw [cell_close] at hv
    split_ifs at hv with hvu
    rw [story_close, if_neg hvu]
    exact h.live hv
  · rw [cell_close] at hv
    rw [story_close]
    by_cases hvu : v = u
    · subst hvu
      obtain ⟨p, hp⟩ := h.live hu
      exact Or.inr (Or.inr ⟨ui.requestId, p, by simp [hp]⟩)
    · rw [if_neg hvu] at hv ⊢
      exact h.gone hv
  · have hvu : v ≠ u := fun he => absurd (Heap.lt_size hu) (Nat.not_lt.2 (he ▸ hv))
    rw [story_close, if_neg hvu]
    exact h.unborn hv

theorem evolves_close (h : d.objects.cell u = some ui) (ht : touched ui) :
    d.Evolves (d.close u ui) touched := by
  refine ⟨fun {v uv} hv hnt => ?_, fun v => ?_⟩
  · rw [cell_close, if_neg, hv]
    rintro rfl
    rw [h, Option.some.injEq] at hv
    exact hnt (hv ▸ ht)
  · rw [story_close]
    split_ifs
    · exact List.prefix_append _ _
    · exact List.prefix_rfl

theorem evolves_put {ui' : AskUINotificationBackend} (h : d.objects.cell u = some ui)
    (ht : touched ui) : d.Evolves (d.put u ui') touched := by
  refine ⟨fun {v uv} hv hnt => ?_, fun v => List.prefix_rfl⟩
  have hvu : v ≠ u := by
    rintro rfl
    rw [h, Option.some.injEq] at hv
    exact hnt (hv ▸ ht)
  simp [Dialogs.put, hvu, hv]

/-- A dialog whose thread is started and that is then stored, its id being free. -/
theorem opened (h : d.Wired) (c : Choice) {id : RequestId} (p : RequestPtr)
    (hid : d.UIs.lookup id = none) : (d.opened c id p).Wired := by
  have hnil : d.story d.objects.size = [] := h.unborn (Nat.le_refl _)
  refine ⟨fun {i v} => ?_, fun {v uv} hv => ?_, fun {v uv} hv => ?_, fun {v} hv => ?_,
    fun {v} hv => ?_⟩
  · rw [UIs_opened, cell_opened]
    by_cases hi : i = id
    · subst hi
      rw [AList.lookup_insert]
      by_cases hv : v = d.objects.size
      · simp [hv]
      · -- no other live dialog has the id, or it would not be free
        refine iff_of_false (by simpa using Ne.symm hv) ?_
        rintro ⟨uv, huv, hid'⟩
        rw [if_neg hv] at huv
        rw [← hid', h.lookup_unique huv] at hid
        exact absurd hid (by simp)
    · rw [AList.lookup_insert_ne hi, h.stored]
      by_cases hv : v = d.objects.size
      · subst hv
        simp [Ne.symm hi]
      · simp [hv]
  · rw [cell_opened] at hv
    split_ifs at hv with hvs
    · rw [Option.some.injEq] at hv
      rw [← hv]
      rfl
    · exact h.joinable hv
  · rw [cell_opened] at hv
    rw [story_opened]
    split_ifs at hv ⊢ with hvs
    · rw [Option.some.injEq] at hv
      exact ⟨p, by rw [← hv, hvs, hnil, List.nil_append]⟩
    · exact h.live hv
  · rw [cell_opened] at hv
    rw [story_opened]
    split_ifs at hv ⊢ with hvs
    exact h.gone hv
  · have hsize : d.objects.size + 1 ≤ v := hv
    rw [story_opened, if_neg (Nat.ne_of_gt hsize)]
    exact h.unborn (Nat.le_of_succ_le hsize)

/-- A dialog that could not be started is destroyed. -/
theorem discard (h : d.Wired) (c : Choice) : (d.discard c).Wired := by
  have hnil : d.story d.objects.size = [] := h.unborn (Nat.le_refl _)
  refine ⟨fun {i v} => by rw [cell_discard]; exact h.stored,
    fun {v uv} hv => h.joinable (cell_discard ▸ hv), fun {v uv} hv => ?_, fun {v} hv => ?_,
    fun {v} hv => ?_⟩
  · rw [cell_discard] at hv
    rw [story_discard, if_neg fun he => by simp [he] at hv]
    exact h.live hv
  · rw [cell_discard] at hv
    rw [story_discard]
    split_ifs with hvs
    · exact Or.inr (Or.inl (by rw [hvs, hnil, List.nil_append]))
    · exact h.gone hv
  · have hsize : d.objects.size + 1 ≤ v := hv
    rw [story_discard, if_neg (Nat.ne_of_gt hsize)]
    exact h.unborn (Nat.le_of_succ_le hsize)

end Wired

end Dialogs

/-! ### The functions of the agent -/

variable {s : Agent} {u : UIPtr} {ui : AskUINotificationBackend}

open Dialogs

theorem dialog_run (hu : s.dialogs.objects.cell u = some ui) : dialog u s = .ok ui s := by
  simp [dialog, hu]

/-- `dismiss` of a dialog whose thread has finished, with the `erase` that follows. -/
theorem dismiss_finished (hu : s.dialogs.objects.cell u = some ui) (ht : ui.thread = .finished) :
    ∃ s₁, dismiss u s = .ok true s₁ ∧
      eraseUI ui.requestId u s₁ = .ok () { s with dialogs := s.dialogs.close u ui } := by
  refine ⟨{ s with dialogs := (s.dialogs.put u
    { ui with dismissing := true, thread := .joined }).note u .joined }, ?_, ?_⟩
  · unfold dismiss
    rw [bind_ok (dialog_run hu)]
    simp [AskUINotificationBackend.dismiss, ht, bind, EStateM.bind, onDialogs, pure, EStateM.pure]
  · unfold eraseUI
    rw [onDialogs_bind]
    simp [destroy, Dialogs.put, Dialogs.note, Dialogs.erase, hu, Dialogs.close,
      AskUINotificationBackend.joinable]

theorem dismiss_unfinished (hu : s.dialogs.objects.cell u = some ui) (hj : ui.joinable)
    (ht : ui.thread ≠ .finished) :
    dismiss u s = .ok false { s with dialogs := s.dialogs.mark u ui } := by
  unfold dismiss
  rw [bind_ok (dialog_run hu)]
  cases hth : ui.thread with
  | finished => exact absurd hth ht
  | joined => simp [AskUINotificationBackend.joinable, hth] at hj
  | notStarted | running | posted =>
    simp [AskUINotificationBackend.dismiss, hth, bind, EStateM.bind, onDialogs, pure, EStateM.pure,
      Dialogs.mark]

/-- `dismissUI` touches the dialog with the given id only. -/
theorem dismissUI_spec (hw : s.dialogs.Wired) (id : RequestId) :
    ∃ d, dismissUI id s = .ok () { s with dialogs := d } ∧ d.Wired ∧
      s.dialogs.Evolves d fun ui => ui.requestId = id := by
  unfold dismissUI
  rw [get_bind]
  cases hl : s.dialogs.UIs.lookup id with
  | none => exact ⟨s.dialogs, rfl, hw, .refl _ _⟩
  | some u =>
    obtain ⟨ui, hu, hid⟩ := hw.stored.1 hl
    by_cases ht : ui.thread = .finished
    · obtain ⟨s₁, hdismiss, herase⟩ := dismiss_finished hu ht
      refine ⟨s.dialogs.close u ui, ?_, hw.close hu, Wired.evolves_close hu hid⟩
      simp only
      rw [bind_ok hdismiss, ← hid]
      exact herase
    · refine ⟨s.dialogs.mark u ui, ?_, hw.mark hu, Wired.evolves_put hu hid⟩
      simp only
      rw [bind_ok (dismiss_unfinished hu (hw.joinable hu) ht)]
      rfl

/-- The loop of `cleanupUIThreads` touches dismissed dialogs only; if it returns `true`, the map
held nothing but the entries that it has erased. -/
theorem cleanupLoop_spec (es : List (Sigma fun _ : RequestId => UIPtr)) (ret : Bool)
    (hw : s.dialogs.Wired) (hes : ∀ e ∈ es, s.dialogs.UIs.lookup e.1 = some e.2)
    (hnodup : (es.map Sigma.fst).Nodup)
    (hret : ret = true → ∀ i u, s.dialogs.UIs.lookup i = some u → ⟨i, u⟩ ∈ es) :
    ∃ ret' d, cleanupLoop es ret s = .ok ret' { s with dialogs := d } ∧ d.Wired ∧
      s.dialogs.Evolves d (fun ui => ui.dismissing) ∧
      (ret' = true → ∀ i, d.UIs.lookup i = none) := by
  induction es generalizing s ret with
  | nil =>
    refine ⟨ret, s.dialogs, rfl, hw, .refl _ _, fun hr i => ?_⟩
    rw [Option.eq_none_iff_forall_not_mem]
    intro u hu
    simpa using hret hr i u hu
  | cons e es ih =>
    obtain ⟨id, u⟩ := e
    simp only [List.map_cons, List.nodup_cons] at hnodup
    obtain ⟨ui, hu, rfl⟩ := hw.stored.1 (hes _ List.mem_cons_self)
    simp only [cleanupLoop]
    rw [bind_ok (dialog_run hu)]
    -- an entry that stays makes the result `false`, so nothing is promised about the map
    have hkeep : ∀ {d : Dialogs}, d.Wired → s.dialogs.Evolves d (fun ui => ui.dismissing) →
        d.UIs = s.dialogs.UIs → ∃ ret' d', cleanupLoop es false { s with dialogs := d } =
            .ok ret' { s with dialogs := d' } ∧ d'.Wired ∧
          s.dialogs.Evolves d' (fun ui => ui.dismissing) ∧
          (ret' = true → ∀ i, d'.UIs.lookup i = none) := by
      intro d hd hev hUIs
      obtain ⟨ret', d', hrun, hw', hev', hemp⟩ := ih (s := { s with dialogs := d }) false hd
        (fun e he => by rw [hUIs]; exact hes e (List.mem_cons_of_mem _ he)) hnodup.2 (by simp)
      exact ⟨ret', d', hrun, hw', hev.trans hev', hemp⟩
    by_cases hdis : ui.dismissing = true
    · by_cases ht : ui.thread = .finished
      · obtain ⟨s₁, hdismiss, herase⟩ := dismiss_finished hu ht
        have hother : ∀ e ∈ es, e.1 ≠ ui.requestId := fun e he heq =>
          hnodup.1 (heq ▸ List.mem_map_of_mem he)
        obtain ⟨ret', d', hrun, hw', hev', hemp⟩ := ih
          (s := { s with dialogs := s.dialogs.close u ui }) ret (hw.close hu)
          (fun e he => (AList.lookup_erase_ne (hother e he)).trans
            (hes e (List.mem_cons_of_mem _ he))) hnodup.2
          (fun hr i v hv => by
            have hi : i ≠ ui.requestId := by
              rintro rfl
              rw [show (s.dialogs.close u ui).UIs = s.dialogs.UIs.erase ui.requestId from rfl,
                AList.lookup_erase] at hv
              exact absurd hv (by simp)
            have := hret hr i v ((AList.lookup_erase_ne hi).symm.trans hv)
            simpa [hi] using this)
        refine ⟨ret', d', ?_, hw', (Wired.evolves_close hu hdis).trans hev', hemp⟩
        rw [if_pos hdis, bind_ok hdismiss, if_pos rfl, bind_ok herase]
        exact hrun
      · rw [if_pos hdis, bind_ok (dismiss_unfinished hu (hw.joinable hu) ht)]
        exact hkeep (hw.mark hu) (Wired.evolves_put hu hdis) rfl
    · rw [if_neg hdis]
      exact hkeep hw (.refl _ _) rfl

theorem cleanupUIThreads_spec (hw : s.dialogs.Wired) :
    ∃ ret d, cleanupUIThreads s = .ok ret { s with dialogs := d } ∧ d.Wired ∧
      s.dialogs.Evolves d (fun ui => ui.dismissing) ∧
      (ret = true → ∀ i, d.UIs.lookup i = none) := by
  unfold cleanupUIThreads
  rw [get_bind]
  exact cleanupLoop_spec _ true hw (fun e he => AList.mem_lookup_iff.2 he)
    s.dialogs.UIs.nodupKeys (fun _ i u hu => AList.mem_lookup_iff.1 hu)

end AskUser.Agent
