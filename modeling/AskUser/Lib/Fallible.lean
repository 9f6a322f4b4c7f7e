import Mathlib.Tactic.SplitIfs

/-!
# Programs that can throw

A program over a state that is kept when an exception ends it: Lean's `EStateM`. A program is run
one statement at a time, without unfolding the rest of it.

`failAt` is a statement that throws at one given point of the program, so that a run can be followed
to its end from every point at which it can be made to throw.

A program that returns `false` where a check fails comes without exceptions (`early_return`).
-/

namespace Fallible

variable {ε σ α β π : Type}

theorem bind_ok {x : EStateM ε σ α} {f : α → EStateM ε σ β} {s s' : σ} {a : α}
    (h : x s = .ok a s') : (x >>= f) s = f a s' := by
  simp only [bind, EStateM.bind, h]

theorem bind_error {x : EStateM ε σ α} {f : α → EStateM ε σ β} {s s' : σ} {e : ε}
    (h : x s = .error e s') : (x >>= f) s = .error e s' := by
  simp only [bind, EStateM.bind, h]

theorem get_bind {f : σ → EStateM ε σ β} {s : σ} : (get >>= f) s = f s s := rfl

theorem modify_bind {g : σ → σ} {f : Unit → EStateM ε σ β} {s : σ} :
    (modify g >>= f) s = f () (g s) := rfl

/-! ### Early returns -/

section EarlyReturn

variable {c : Prop} [Decidable c] {k : StateM σ Bool} {s s' : σ}

theorem early_return :
    (if c then pure false else k) s = (true, s') ↔ ¬ c ∧ k s = (true, s') := by
  split_ifs with h
  · exact iff_of_false (fun he => by cases he) fun he => he.1 h
  · simp [h]

theorem set_then {k : Unit → StateM σ α} : (set s' >>= k) s = k () s' := rfl

theorem modify_then {g : σ → σ} {k : Unit → StateM σ α} : (modify g >>= k) s = k () (g s) := rfl

theorem return_true : (pure true : StateM σ Bool) s = (true, s') ↔ s' = s := by
  show (true, s) = (true, s') ↔ _
  simp [eq_comm]

end EarlyReturn

/-! ### Failure at a given point -/

variable [DecidableEq π]

/-- Throw, if `point` is the point at which the run is to throw. -/
def failAt (throwAt : Option π) (point : π) (e : ε) : EStateM ε σ Unit := fun s =>
  if throwAt = some point then .error e s else .ok () s

theorem failAt_pass {throwAt : Option π} {point : π} {e : ε} {f : Unit → EStateM ε σ β} {s : σ}
    (h : throwAt ≠ some point) : (failAt throwAt point e >>= f) s = f () s :=
  bind_ok (if_neg h)

theorem failAt_throw {throwAt : Option π} {point : π} {e : ε} {f : Unit → EStateM ε σ β} {s : σ}
    (h : throwAt = some point) : (failAt throwAt point e >>= f) s = .error e s :=
  bind_error (if_pos h)

end Fallible
