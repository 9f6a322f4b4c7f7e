import Mathlib.Data.List.Basic

/-!
# What a program leaves alone

A `Frame` is a relation between states that a program can keep: however a run of the program ends,
its last state is related to its first (`Keeps`). A program keeps a frame if its parts do, so this
is read off its text, with nothing to be known about the states in between.

`Frame.appends` is the frame of a log: entries are only appended to it, and only allowed ones. With
no entry allowed it says that the log stays as it is.
-/

namespace Fallible

variable {ε σ τ α β : Type}

/-- A reflexive and transitive relation between states. -/
structure Frame (σ : Type) where
  rel : σ → σ → Prop
  refl : ∀ s, rel s s
  trans : ∀ {s₁ s₂ s₃}, rel s₁ s₂ → rel s₂ s₃ → rel s₁ s₃

/-- The state in which a run ends. -/
def last : EStateM.Result ε σ α → σ
  | .ok _ s => s
  | .error _ s => s

@[simp] theorem last_ok (a : α) (s : σ) : last (.ok a s : EStateM.Result ε σ α) = s := rfl

@[simp] theorem last_error (e : ε) (s : σ) : last (.error e s : EStateM.Result ε σ α) = s := rfl

/-- However a run of the program ends, its last state is related to its first. -/
def Keeps (F : Frame σ) (x : EStateM ε σ α) : Prop := ∀ s, F.rel s (last (x s))

variable {F : Frame σ} {x : EStateM ε σ α} {f : α → EStateM ε σ β}

theorem keeps_pure (a : α) : Keeps F (pure a : EStateM ε σ α) := fun s => F.refl s

theorem keeps_throw (e : ε) : Keeps F (throw e : EStateM ε σ α) := fun s => F.refl s

/-- A sequence, from one state. -/
theorem bind_rel {s : σ} (hx : F.rel s (last (x s))) (hf : ∀ a, Keeps F (f a)) :
    F.rel s (last ((x >>= f) s)) := by
  show F.rel s (last (EStateM.bind x f s))
  cases hrun : x s with
  | ok a s₁ =>
    rw [hrun] at hx
    simp only [EStateM.bind, hrun]
    exact F.trans hx (hf a s₁)
  | error e s₁ =>
    rw [hrun] at hx
    simp only [EStateM.bind, hrun]
    exact hx

/-- **Sequences.** -/
theorem Keeps.bind (hx : Keeps F x) (hf : ∀ a, Keeps F (f a)) : Keeps F (x >>= f) :=
  fun s => bind_rel (hx s) hf

/-- A program that begins by reading the state. -/
theorem keeps_get_bind {f : σ → EStateM ε σ β} (hf : ∀ s, Keeps F (f s)) : Keeps F (get >>= f) :=
  Keeps.bind (fun s => F.refl s) hf

theorem Keeps.ite {c : Prop} [Decidable c] {x y : EStateM ε σ α} (hx : Keeps F x)
    (hy : Keeps F y) : Keeps F (if c then x else y) := by
  by_cases hc : c
  · rwa [if_pos hc]
  · rwa [if_neg hc]

/-- Only allowed entries are appended to a log. -/
def Frame.appends (log : σ → List τ) (allowed : τ → Prop) : Frame σ where
  rel s s' := ∃ new, log s' = log s ++ new ∧ ∀ t ∈ new, allowed t
  refl s := ⟨[], (List.append_nil _).symm, fun _ ht => absurd ht List.not_mem_nil⟩
  trans := by
    rintro s₁ s₂ s₃ ⟨new, hlog, hnew⟩ ⟨new', hlog', hnew'⟩
    refine ⟨new ++ new', by rw [hlog', hlog, List.append_assoc], fun t ht => ?_⟩
    exact (List.mem_append.1 ht).elim (hnew t) (hnew' t)

/-- Entries that a function passes over do not change what it makes of a log. -/
theorem filterMap_of_appends {log : σ → List τ} {allowed : τ → Prop} {s s' : σ}
    (h : (Frame.appends log allowed).rel s s') {f : τ → Option α}
    (hf : ∀ t, allowed t → f t = none) : (log s').filterMap f = (log s).filterMap f := by
  obtain ⟨new, hlog, hnew⟩ := h
  rw [hlog, List.filterMap_append, List.filterMap_eq_nil_iff.2 fun t ht => hf t (hnew t ht),
    List.append_nil]

end Fallible
