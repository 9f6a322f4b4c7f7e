import AskUser.Lib.Heap

/-!
# Machines that answer

A `Machine` takes inputs one by one and answers each with some outputs.

* `outputs_append`, `outputs_eq_nil`: the outputs of a word of inputs, part by part, and when there
  are none;
* `Machine.each` has one copy of a machine for every key, and an input is for one of them. The
  copies do not disturb each other: what is answered under a key is what one machine alone answers
  to the inputs under this key (`each_outputs`).
-/

namespace Machines
open Objects

/-- A state to start from, and for every input the next state and what is answered. -/
structure Machine (σ ι ο : Type*) where
  start : σ
  step : σ → ι → σ × List ο

namespace Machine

variable {σ ι ο κ : Type*} (M : Machine σ ι ο)

/-- The state after a word of inputs. -/
def state (s : σ) (w : List ι) : σ := w.foldl (fun s x => (M.step s x).1) s

/-- What is answered to a word of inputs. -/
def outputs : σ → List ι → List ο
  | _, [] => []
  | s, x :: w => (M.step s x).2 ++ outputs (M.step s x).1 w

@[simp] theorem state_nil (s : σ) : M.state s [] = s := rfl

@[simp] theorem state_cons (s : σ) (x : ι) (w : List ι) :
    M.state s (x :: w) = M.state (M.step s x).1 w := rfl

@[simp] theorem outputs_nil (s : σ) : M.outputs s [] = [] := rfl

@[simp] theorem outputs_cons (s : σ) (x : ι) (w : List ι) :
    M.outputs s (x :: w) = (M.step s x).2 ++ M.outputs (M.step s x).1 w := rfl

theorem state_append (s : σ) (w w' : List ι) :
    M.state s (w ++ w') = M.state (M.state s w) w' := List.foldl_append

theorem outputs_append (s : σ) (w w' : List ι) :
    M.outputs s (w ++ w') = M.outputs s w ++ M.outputs (M.state s w) w' := by
  induction w generalizing s with
  | nil => rfl
  | cons x w ih =>
    rw [List.cons_append, outputs_cons, ih, outputs_cons, state_cons, List.append_assoc]

variable {M}

/-- Nothing is answered in states that some inputs do not leave, and in which they are not
answered. -/
theorem outputs_eq_nil {P : σ → Prop} {Q : ι → Prop}
    (hquiet : ∀ s x, P s → Q x → P (M.step s x).1 ∧ (M.step s x).2 = []) {s : σ} {w : List ι}
    (hs : P s) (hw : ∀ x ∈ w, Q x) : M.outputs s w = [] := by
  induction w generalizing s with
  | nil => rfl
  | cons x w ih =>
    obtain ⟨hnext, hnone⟩ := hquiet s x hs (hw x List.mem_cons_self)
    rw [outputs_cons, hnone, ih hnext fun y hy => hw y (List.mem_cons_of_mem _ hy)]
    rfl

variable [DecidableEq κ] (M)

/-- One copy of the machine for every key. -/
def each (κ : Type*) [DecidableEq κ] : Machine (κ → σ) (κ × ι) (κ × ο) where
  start _ := M.start
  step s x :=
    (Function.update s x.1 (M.step (s x.1) x.2).1, (M.step (s x.1) x.2).2.map (x.1, ·))

/-- Each copy goes by the inputs under its key. -/
theorem each_state (s : κ → σ) (j : Journal κ ι) (k : κ) :
    (M.each κ).state s j.entries k = M.state (s k) (j.story k) := by
  obtain ⟨w⟩ := j
  unfold Journal.story
  induction w generalizing s with
  | nil => rfl
  | cons x w ih =>
    rw [state_cons, ih]
    by_cases hk : x.1 = k
    · subst hk
      simp [each]
    · simp [each, hk, Function.update_of_ne (Ne.symm hk)]

/-- **Keys do not interfere.** -/
theorem each_outputs (s : κ → σ) (j : Journal κ ι) (k : κ) :
    (⟨(M.each κ).outputs s j.entries⟩ : Journal κ ο).story k = M.outputs (s k) (j.story k) := by
  obtain ⟨w⟩ := j
  unfold Journal.story
  induction w generalizing s with
  | nil => rfl
  | cons x w ih =>
    rw [outputs_cons, List.filter_append, List.map_append, ih]
    by_cases hk : x.1 = k
    · subst hk
      simp [each, List.filter_map, Function.comp_def]
    · simp [each, hk, List.filter_map, Function.comp_def, Function.update_of_ne (Ne.symm hk)]

end Machine

end Machines
