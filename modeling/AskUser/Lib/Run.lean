import Mathlib.Data.List.Induction

/-!
# Runs of labelled transition systems

A system takes steps that are named by labels, where a step may be impossible. `Reachable` are the
states of the runs whose steps all satisfy a condition on the label and the state before the step.

* `Reachable.invariant`: what holds at the start and is kept by every step holds everywhere;
* `Reachable.simulate`: a map that takes steps to steps, or to nothing, takes runs to runs;
* `Reachable.of_exec`: the runs of a given list of labels;
* `exec_marked`: a run keeps one invariant until its first bad label, and another one from there on;
* `exec_passes`: a run with enough steps that count passes through a goal, if each of them brings
  the goal closer and the others put it off by no more than they are charged for;
* `exec_history`: an invariant of a state and the labels that led to it.
-/

namespace Run

variable {σ ℓ : Type*} {step : ℓ → σ → Option σ} {cond cond' : ℓ → σ → Prop} {start : σ}

/-- The states of the runs from `start` whose steps all satisfy `cond`. -/
inductive Reachable (step : ℓ → σ → Option σ) (cond : ℓ → σ → Prop) (start : σ) : σ → Prop
  | start : Reachable step cond start start
  | step {s s' : σ} (l : ℓ) : Reachable step cond start s → cond l s → step l s = some s' →
      Reachable step cond start s'

/-- The condition that every step satisfies. -/
def always : ℓ → σ → Prop := fun _ _ => True

/-- Both conditions. -/
def both (cond cond' : ℓ → σ → Prop) : ℓ → σ → Prop := fun l s => cond l s ∧ cond' l s

instance (l : ℓ) (s : σ) : Decidable (always l s) := .isTrue trivial

instance (l : ℓ) (s : σ) [Decidable (cond l s)] [Decidable (cond' l s)] :
    Decidable (both cond cond' l s) :=
  inferInstanceAs (Decidable (_ ∧ _))

/-- **The rule of invariants.** -/
theorem Reachable.invariant {P : σ → Prop} {s : σ} (h : Reachable step cond start s)
    (h0 : P start) (hstep : ∀ l s s', P s → cond l s → step l s = some s' → P s') : P s := by
  induction h with
  | start => exact h0
  | step l _ hl hs ih => exact hstep l _ _ ih hl hs

theorem Reachable.mono {s : σ} (h : Reachable step cond start s)
    (hcond : ∀ l s, cond l s → cond' l s) : Reachable step cond' start s := by
  induction h with
  | start => exact .start
  | step l _ hl hs ih => exact ih.step l (hcond _ _ hl) hs

theorem Reachable.trans {s s' : σ} (h : Reachable step cond start s)
    (h' : Reachable step cond s s') : Reachable step cond start s' := by
  induction h' with
  | start => exact h
  | step l _ hl hs ih => exact ih.step l hl hs

/-- **The rule of refinement.** -/
theorem Reachable.simulate {τ m : Type*} {step' : m → τ → Option τ} {start' : τ} (f : σ → τ)
    (h0 : f start = start')
    (hstep : ∀ l s s', Reachable step cond start s → cond l s → step l s = some s' →
      f s' = f s ∨ ∃ l', step' l' (f s) = some (f s'))
    {s : σ} (h : Reachable step cond start s) :
    Reachable step' always start' (f s) := by
  induction h with
  | start => exact h0 ▸ .start
  | step l hr hl hs ih =>
    rcases hstep l _ _ hr hl hs with heq | ⟨l', hs'⟩
    · rw [heq]
      exact ih
    · exact ih.step l' trivial hs'

/-- The state after the steps of a list of labels, if they are possible and satisfy `cond`. -/
def exec (step : ℓ → σ → Option σ) (cond : ℓ → σ → Prop) [∀ l s, Decidable (cond l s)] :
    List ℓ → σ → Option σ
  | [], s => some s
  | l :: ls, s => if cond l s then (step l s).bind (exec step cond ls) else none

theorem Reachable.of_exec [∀ l s, Decidable (cond l s)] {ls : List ℓ} {s s' : σ}
    (h : Reachable step cond start s) (he : exec step cond ls s = some s') :
    Reachable step cond start s' := by
  induction ls generalizing s with
  | nil =>
    obtain rfl : s = s' := by simpa [exec] using he
    exact h
  | cons l ls ih =>
    unfold exec at he
    by_cases hl : cond l s
    · rw [if_pos hl] at he
      obtain ⟨s₁, hs, he⟩ := Option.bind_eq_some_iff.1 he
      exact ih (h.step l hl hs) he
    · simp [hl] at he

/-- A run of given labels reaches a state with a given property. -/
theorem Reachable.exists_of_exec [∀ l s, Decidable (cond l s)] {α : Type*} {f : σ → α} {a : α}
    (ls : List ℓ) (h : (exec step cond ls start).map f = some a) :
    ∃ s, Reachable step cond start s ∧ f s = a := by
  obtain ⟨s, hs, hfs⟩ := Option.map_eq_some_iff.1 h
  exact ⟨s, .of_exec .start hs, hfs⟩

/-- A run keeps `P` until its first bad label, and `Q` from there on. -/
theorem exec_marked (bad : ℓ → Prop) (P Q : σ → Prop)
    (hok : ∀ l s s', P s → ¬ bad l → step l s = some s' → P s')
    (hbad : ∀ l s s', P s → bad l → step l s = some s' → Q s')
    (hstay : ∀ l s s', Q s → step l s = some s' → Q s') {ls : List ℓ} {s s' : σ}
    (h : exec step always ls s = some s') :
    (P s → (∀ l ∈ ls, ¬ bad l) ∧ P s' ∨ (∃ l ∈ ls, bad l) ∧ Q s') ∧ (Q s → Q s') := by
  induction ls generalizing s with
  | nil =>
    obtain rfl : s = s' := by simpa [exec] using h
    exact ⟨fun hP => Or.inl ⟨by simp, hP⟩, id⟩
  | cons l ls ih =>
    have htrue : always l s := trivial
    rw [exec, if_pos htrue] at h
    obtain ⟨s₁, hs, h⟩ := Option.bind_eq_some_iff.1 h
    obtain ⟨ihP, ihQ⟩ := ih h
    refine ⟨fun hP => ?_, fun hQ => ihQ (hstay _ _ _ hQ hs)⟩
    by_cases hl : bad l
    · exact Or.inr ⟨⟨l, List.mem_cons_self, hl⟩, ihQ (hbad _ _ _ hP hl hs)⟩
    · rcases ihP (hok _ _ _ hP hl hs) with ⟨hall, hP'⟩ | ⟨⟨l', hl', hbad'⟩, hQ'⟩
      · exact Or.inl ⟨List.forall_mem_cons.2 ⟨hl, hall⟩, hP'⟩
      · exact Or.inr ⟨⟨l', List.mem_cons_of_mem _ hl', hbad'⟩, hQ'⟩

/-! ### Parts of a run -/

section Parts

variable [∀ l s, Decidable (cond l s)] {ls ls' : List ℓ} {s s' : σ} {l : ℓ}

theorem exec_cons : exec step cond (l :: ls) s = some s' ↔
    cond l s ∧ ∃ s₁, step l s = some s₁ ∧ exec step cond ls s₁ = some s' := by
  rw [exec]
  by_cases hl : cond l s
  · simp [hl, Option.bind_eq_some_iff]
  · simp [hl]

theorem exec_append : exec step cond (ls ++ ls') s = some s' ↔
    ∃ s₁, exec step cond ls s = some s₁ ∧ exec step cond ls' s₁ = some s' := by
  induction ls generalizing s with
  | nil => simp [exec]
  | cons l ls ih =>
    simp only [List.cons_append, exec_cons, ih]
    constructor
    · rintro ⟨hl, s₁, hs, s₂, hs₁, hs₂⟩
      exact ⟨s₂, ⟨hl, s₁, hs, hs₁⟩, hs₂⟩
    · rintro ⟨s₂, ⟨hl, s₁, hs, hs₁⟩, hs₂⟩
      exact ⟨hl, s₁, hs, s₂, hs₁, hs₂⟩

/-- The two parts of a run of given labels, with what they lead to. -/
theorem exists_exec_append {α β : Type*} {f : σ → α} {g : σ → β} {a : α} {b : β}
    (ls ls' : List ℓ) (h : (exec step cond ls start).map f = some a)
    (h' : (exec step cond (ls ++ ls') start).map g = some b) :
    ∃ s s', Reachable step cond start s ∧ f s = a ∧ exec step cond ls' s = some s' ∧ g s' = b := by
  obtain ⟨s, hs, hfs⟩ := Option.map_eq_some_iff.1 h
  obtain ⟨s', hs', hgs⟩ := Option.map_eq_some_iff.1 h'
  obtain ⟨s₁, hs₁, hs'⟩ := exec_append.1 hs'
  obtain rfl := Option.some.inj (hs.symm.trans hs₁)
  exact ⟨s, s', .of_exec .start hs, hfs, hs', hgs⟩

/-- **The rule of history.** An invariant can speak of the labels so far. -/
theorem exec_history {P : List ℓ → σ → Prop} (h0 : P [] start)
    (hstep : ∀ ls l s s', P ls s → cond l s → step l s = some s' → P (ls ++ [l]) s')
    (h : exec step cond ls start = some s) : P ls s := by
  induction ls using List.reverseRecOn generalizing s with
  | nil =>
    obtain rfl : start = s := by simpa [exec] using h
    exact h0
  | append_singleton ls l ih =>
    obtain ⟨s₁, hs₁, hs⟩ := exec_append.1 h
    obtain ⟨hl, s₂, hs₂, hs⟩ := exec_cons.1 hs
    obtain rfl : s₂ = s := by simpa [exec] using hs
    exact hstep ls l s₁ s₂ (ih hs₁) hl hs₂

end Parts

/-! ### Progress -/

/-- The run of the given labels from `s` passes through a state with the property `goal`. -/
def Passes (step : ℓ → σ → Option σ) (goal : σ → Prop) (ls : List ℓ) (s : σ) : Prop :=
  ∃ ls₁ ls₂ s₁, ls = ls₁ ++ ls₂ ∧ exec step always ls₁ s = some s₁ ∧ goal s₁

theorem Passes.here {goal : σ → Prop} {ls : List ℓ} {s : σ} (h : goal s) : Passes step goal ls s :=
  ⟨[], ls, s, rfl, rfl, h⟩

theorem Passes.later {goal : σ → Prop} {l : ℓ} {ls : List ℓ} {s s' : σ} (hs : step l s = some s')
    (h : Passes step goal ls s') : Passes step goal (l :: ls) s := by
  obtain ⟨ls₁, ls₂, s₁, rfl, hs₁, hgoal⟩ := h
  exact ⟨l :: ls₁, ls₂, s₁, rfl, exec_cons.2 ⟨trivial, s', hs, hs₁⟩, hgoal⟩

theorem Passes.mono {goal goal' : σ → Prop} {ls : List ℓ} {s : σ} (h : Passes step goal ls s)
    (hgoal : ∀ s₁, Reachable step always s s₁ → goal s₁ → goal' s₁) : Passes step goal' ls s := by
  obtain ⟨ls₁, ls₂, s₁, heq, hs₁, hg⟩ := h
  exact ⟨ls₁, ls₂, s₁, heq, hs₁, hgoal s₁ (.of_exec .start hs₁) hg⟩

/-- What a run passes through and never leaves holds at its end. -/
theorem Passes.at_end {goal : σ → Prop} {ls : List ℓ} {s s' : σ} (h : Passes step goal ls s)
    (hs : exec step always ls s = some s')
    (hstay : ∀ l s s', goal s → step l s = some s' → goal s') : goal s' := by
  obtain ⟨ls₁, ls₂, s₁, rfl, hs₁, hg⟩ := h
  obtain ⟨s₂, hs₂, hs⟩ := exec_append.1 hs
  obtain rfl := Option.some.inj (hs₁.symm.trans hs₂)
  exact (Reachable.of_exec .start hs).invariant hg fun l s s' hgs _ => hstay l s s' hgs

/-- **The rule of progress.** `within n s` says that `n` steps that count are enough from `s`, and
never that none is. Such a step uses one of them up, and a step that is charged may add `c`. -/
theorem exec_passes (within : ℕ → σ → Prop) {goal : σ → Prop} {counts charged : ℓ → Bool} {c : ℕ}
    (hzero : ∀ s, ¬ within 0 s)
    (hstep : ∀ l n s s', within n s → step l s = some s' →
      goal s' ∨ ∃ m, within m s' ∧ m + (counts l).toNat ≤ n + c * (charged l).toNat)
    {ls : List ℓ} {s s' : σ} {n : ℕ} (hs : exec step always ls s = some s') (h : within n s)
    (hlong : n + c * ls.countP charged ≤ ls.countP counts) : Passes step goal ls s := by
  induction ls generalizing s n with
  | nil =>
    obtain rfl : n = 0 := by simpa using hlong
    exact absurd h (hzero s)
  | cons l ls ih =>
    obtain ⟨-, s₁, hs₁, hs⟩ := exec_cons.1 hs
    rcases hstep l n s s₁ h hs₁ with hgoal | ⟨m, hm, hle⟩
    · exact .later hs₁ (.here hgoal)
    · refine .later hs₁ (ih hs hm ?_)
      have hcounts : (l :: ls).countP counts = ls.countP counts + (counts l).toNat := by
        rw [List.countP_cons]
        cases counts l <;> rfl
      have hcharged : (l :: ls).countP charged = ls.countP charged + (charged l).toNat := by
        rw [List.countP_cons]
        cases charged l <;> rfl
      rw [hcounts, hcharged, Nat.mul_add] at hlong
      omega

end Run
