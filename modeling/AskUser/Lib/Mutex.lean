import Mathlib.Logic.Basic

/-!
# A mutex

`std::mutex`, for the threads of any type. A thread that locks it waits while another thread owns
it; to lock it twice, or to unlock it without owning it, is a misuse.

`Mutex.Guards` is what a mutex is there for: the threads that are inside (in a part of the program
that needs the mutex) are those that own it. So there is never more than one of them
(`Guards.exclusive`), and it is kept by a thread that locks the mutex on its way in
(`Guards.lock`) and unlocks it on its way out (`Guards.unlock`).
-/

namespace Locks

/-- What becomes of a call that can block, and that has a precondition. -/
inductive Outcome (α : Type)
  | done (a : α)
  | blocked
  | misused

structure Mutex (ι : Type) where
  owner : Option ι

namespace Mutex

variable {ι : Type}

def free : Mutex ι := ⟨none⟩

def Guards (m : Mutex ι) (inside : ι → Prop) : Prop := ∀ i, m.owner = some i ↔ inside i

section Calls

variable [DecidableEq ι]

def lock (m : Mutex ι) (i : ι) : Outcome (Mutex ι) :=
  match m.owner with
  | none => .done ⟨some i⟩
  | some j => if j = i then .misused else .blocked

def unlock (m : Mutex ι) (i : ι) : Outcome (Mutex ι) :=
  if m.owner = some i then .done free else .misused

theorem lock_cases {m : Mutex ι} {i : ι} (hi : m.owner ≠ some i) :
    (m.owner = none ∧ m.lock i = .done ⟨some i⟩) ∨
      ∃ j, j ≠ i ∧ m.owner = some j ∧ m.lock i = .blocked := by
  unfold lock
  cases hm : m.owner with
  | none => exact Or.inl ⟨rfl, rfl⟩
  | some j =>
    have hj : j ≠ i := fun he => hi (he ▸ hm)
    exact Or.inr ⟨j, hj, rfl, if_neg hj⟩

theorem unlock_eq {m : Mutex ι} {i : ι} (hi : m.owner = some i) : m.unlock i = .done free :=
  if_pos hi

end Calls

variable {m : Mutex ι} {inside inside' : ι → Prop} {i j : ι}

theorem guards_free : (free : Mutex ι).Guards fun _ => False := fun i => by simp [free]

/-- **Mutual exclusion.** -/
theorem Guards.exclusive (h : m.Guards inside) (hi : inside i) (hj : inside j) : i = j :=
  Option.some.inj (((h i).2 hi).symm.trans ((h j).2 hj))

theorem Guards.congr (h : m.Guards inside) (hinside : ∀ j, inside' j ↔ inside j) :
    m.Guards inside' :=
  fun j => (h j).trans (hinside j).symm

/-- A thread locks the mutex and goes inside. -/
theorem Guards.lock (h : m.Guards inside) (hm : m.owner = none)
    (hinside : ∀ j, inside' j ↔ j = i ∨ inside j) : (⟨some i⟩ : Mutex ι).Guards inside' := by
  intro j
  have hj : ¬ inside j := fun hj => by simpa [hm] using (h j).2 hj
  rw [hinside]
  constructor
  · intro he
    exact Or.inl (Option.some.inj he).symm
  · rintro (rfl | hin)
    · rfl
    · exact absurd hin hj

/-- A thread comes out and unlocks the mutex. -/
theorem Guards.unlock (h : m.Guards inside) (hi : m.owner = some i)
    (hinside : ∀ j, inside' j ↔ j ≠ i ∧ inside j) : (free : Mutex ι).Guards inside' := by
  intro j
  rw [hinside]
  constructor
  · intro he
    simp [free] at he
  · rintro ⟨hne, hj⟩
    exact absurd (Option.some.inj (((h j).2 hj).symm.trans hi)) hne

end Mutex

end Locks
