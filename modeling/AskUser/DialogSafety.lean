import AskUser.AgentInvariant

/-!
# No dialog dies with a live thread

`DialogsSafe` says of a state that no dialog was destroyed before its thread was joined, that no
thread was joined twice, and that a dialog with a thread is stored under its id.

It can fail in one way. A cancelled dialog stays in `m_UIs` until its thread has finished, and
cynara may use the id again meanwhile; `startUIForRequest` then starts a second thread for the id,
`m_UIs.insert` inserts nothing, and the new dialog is destroyed with its thread running.

`dialogsSafe_of_freeId` is safety along the runs without such a step, and says that each such step
is fatal.
-/

namespace AskUser.Agent
open RequestType Objects Fallible

/-- No dialog was destroyed with a thread that was not joined, or joined twice, or lost. -/
structure DialogsSafe (s : Agent) : Prop where
  destroyed : ∀ u before after, s.dialogs.story u = before ++ .destroyed :: after →
    (∃ i p, .started i p ∈ before) → .joined ∈ before
  joined : ∀ u, (s.dialogs.story u).count .joined ≤ 1
  stored : ∀ u i p, .started i p ∈ s.dialogs.story u → .joined ∉ s.dialogs.story u →
    s.dialogs.UIs.lookup i = some u

/-- If the step starts a dialog, then for an id that `m_UIs` does not hold. -/
def FreeId (L : Limits) (l : Label) (s : Agent) : Prop :=
  ∀ id ∈ startsDialog L l s, id ∉ s.dialogs.UIs

instance (L : Limits) (l : Label) (s : Agent) : Decidable (FreeId L l s) :=
  inferInstanceAs (Decidable (∀ id ∈ startsDialog L l s, id ∉ s.dialogs.UIs))

variable {L : Limits} {s : Agent}

theorem Inv.dialogsSafe (h : Inv s) : DialogsSafe s := by
  -- the four stories that a dialog can have
  have hcases : ∀ u, s.dialogs.story u = [] ∨ s.dialogs.story u = [.destroyed] ∨
      (∃ i p, s.dialogs.story u = [.started i p] ∧ s.dialogs.UIs.lookup i = some u) ∨
      ∃ i p, s.dialogs.story u = [.started i p, .joined, .destroyed] := by
    intro u
    cases hcell : s.dialogs.objects.cell u with
    | some ui =>
      obtain ⟨p, hp⟩ := h.wired.live hcell
      exact Or.inr (Or.inr (Or.inl ⟨_, p, hp, h.wired.lookup_unique hcell⟩))
    | none => exact (h.wired.gone hcell).imp_right (Or.imp_right Or.inr)
  refine ⟨fun u before after hst hstart => ?_, fun u => ?_, fun u i p hu hj => ?_⟩
  · obtain ⟨i, p, hstart⟩ := hstart
    rcases hcases u with hs | hs | ⟨j, q, hs, -⟩ | ⟨j, q, hs⟩ <;> rw [hs] at hst
    · simp at hst
    · obtain rfl : before = [] := by
        rcases before with _ | ⟨a, before⟩ <;> simp_all
      simp at hstart
    · rcases before with _ | ⟨a, before⟩ <;> simp at hst
    · rcases before with _ | ⟨a, _ | ⟨b, before⟩⟩
      · simp at hst
      · simp at hst
      · simp only [List.cons_append, List.cons.injEq] at hst
        simp [← hst.2.1]
  · rcases hcases u with hs | hs | ⟨j, q, hs, -⟩ | ⟨j, q, hs⟩ <;> simp [hs]
  · rcases hcases u with hs | hs | ⟨j, q, hs, hl⟩ | ⟨j, q, hs⟩
    · simp [hs] at hu
    · simp [hs] at hu
    · obtain ⟨rfl, rfl⟩ : i = j ∧ p = q := by simpa [hs] using hu
      exact hl
    · simp [hs] at hj

/-- What `startsDialog` says of the label and the state. -/
theorem startsDialog_eq_some {l : Label} {id : RequestId} (h : startsDialog L l s = some id) :
    ∃ c p r d, l = .main c ∧ s.pc = .request p ∧ s.store.objects.cell p = some r ∧ r.id = id ∧
      r.type = RT_Action ∧ s.store.requests.lookup r.id = none ∧
      Translator.Agent.dataToRequest L c.strSize r.data = .ok d ∧ c.createUI = true := by
  cases l with
  | talker | post | postThrows | finish | sigterm => simp [startsDialog] at h
  | main c =>
    cases hpc : s.pc with
    | request p =>
      simp only [startsDialog, hpc, Option.bind_eq_some_iff, Option.ite_none_right_eq_some,
        Option.some.injEq] at h
      obtain ⟨r, hp, ⟨haction, hl, hd, hc⟩, hid⟩ := h
      cases hd' : Translator.Agent.dataToRequest L c.strSize r.data with
      | error e => simp [hd', Except.isOk, Except.toBool] at hd
      | ok d => exact ⟨c, p, r, d, rfl, rfl, hp, hid, haction, hl, hd', hc⟩
    | _ => simp [startsDialog, hpc] at h

/-- A dialog that is started for an id that `m_UIs` holds is destroyed with its thread running. -/
theorem not_dialogsSafe_of_clash {l : Label} {s' : Agent} (hfree : ¬ FreeId L l s) (hinv : Inv s)
    (hs : step L l s = some s') : ¬ DialogsSafe s' := by
  simp only [FreeId, Option.mem_def, not_forall, not_not] at hfree
  obtain ⟨id, hstart, hid⟩ := hfree
  obtain ⟨c, p, r, d, rfl, hpc, hp, rfl, haction, hl, hd, hc⟩ := startsDialog_eq_some hstart
  obtain ⟨u, hu⟩ := Option.isSome_iff_exists.1 (AList.lookup_isSome.2 hid)
  have hmain : mainStep L c s = { s with
      dialogs := (s.dialogs.start c r.id p).free s.dialogs.objects.size
      pc := .crashed .terminate } := by
    simp only [mainStep, hpc, call]
    rw [bind_ok (request_run hp), if_neg (by simp [haction]),
      bind_error (processCynaraRequest_clashes hp haction hl hd hc hu)]
    rfl
  obtain rfl : mainStep L c s = s' := by
    simpa [step, hpc, Pc.isFinal] using hs
  rw [hmain]
  intro hsafe
  have hst : ((s.dialogs.start c r.id p).free s.dialogs.objects.size).story s.dialogs.objects.size =
      [.started r.id p] ++ [.destroyed] := by
    have hnil : s.dialogs.story s.dialogs.objects.size = [] := hinv.wired.unborn (Nat.le_refl _)
    simp [hnil]
  have := hsafe.destroyed _ _ _ hst ⟨r.id, p, by simp⟩
  simp at this

/-- A step of the main thread that crashes starts a dialog for an id that `m_UIs` holds. -/
theorem MainStep.not_freeId {c : Choice} {s' : Agent} {a : Abort} (hs : MainStep L c s s')
    (hcrash : s'.pc = .crashed a) : ¬ FreeId L (.main c) s := by
  cases hs with
  | clashed hpc hp haction hl hd hc hu =>
    intro hfree
    refine hfree _ ?_ (AList.lookup_isSome.1 (by rw [hu]; rfl))
    simp [startsDialog, hpc, hp, haction, hl, hd, hc, Except.isOk, Except.toBool]
  | moves hm =>
    simp only at hcrash
    rw [hcrash] at hm
    generalize s.pc = pc at hm
    cases hm
  | _ => simp at hcrash

/-- The invariant holds in every state of a run that starts dialogs for free ids only. -/
theorem inv_of_freeId {cond : Label → Agent → Prop} (hcond : ∀ l s, cond l s → FreeId L l s)
    (h : Reachable L cond s) : Inv s := by
  refine h.invariant (P := Inv) inv_new fun l s s' ih hl hs => ?_
  obtain ⟨hpc, ⟨c, rfl, hmain⟩ | ⟨-, hother⟩⟩ := step_cases ih hs
  · exact (hmain.inv ih).resolve_left fun hcrash => hmain.not_freeId hcrash (hcond _ _ hl)
  · exact hother.inv ih hpc

/-- An Action is cancelled while its dialog is on the screen. -/
def cancelRun : List Label :=
  [tick, .talker (.initialized true), .talker (.received .ACTION 1 question), tick, tick, tick,
    tick, tick, tick, .talker (.received .CANCEL 1 []), tick, tick]

end AskUser.Agent
