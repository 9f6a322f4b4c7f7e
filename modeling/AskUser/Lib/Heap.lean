import Mathlib.Data.List.Basic
import Mathlib.Logic.Function.Basic

/-!
# Objects and their stories

* `Heap α`: the objects of one type that a program has created and not yet destroyed. Addresses are
  given out once, in order, so an address names one object for ever;
* `Journal κ ε`: what has happened so far, each event filed under the object it happened to. The
  story of an object (`Journal.story`) is the sequence of its events, and `Journal.select` picks the
  events of one kind, of all objects.
-/

namespace Objects

/-- The live objects, by address. No address from `size` on was given out yet. -/
structure Heap (α : Type*) where
  cell : ℕ → Option α
  size : ℕ
  fresh : ∀ p, size ≤ p → cell p = none

namespace Heap

variable {α : Type*}

def empty : Heap α := ⟨fun _ => none, 0, fun _ _ => rfl⟩

/-- A new object, at the address `h.size`. -/
def alloc (h : Heap α) (a : α) : Heap α where
  cell p := if p = h.size then some a else h.cell p
  size := h.size + 1
  fresh p hp := by
    rw [if_neg (by omega)]
    exact h.fresh p (by omega)

def modify (h : Heap α) (p : ℕ) (f : α → α) : Heap α where
  cell q := if q = p then (h.cell q).map f else h.cell q
  size := h.size
  fresh q hq := by simp [h.fresh q hq]

def free (h : Heap α) (p : ℕ) : Heap α where
  cell q := if q = p then none else h.cell q
  size := h.size
  fresh q hq := by simp [h.fresh q hq]

@[simp] theorem cell_empty (p : ℕ) : (empty : Heap α).cell p = none := rfl

@[simp] theorem cell_alloc (h : Heap α) (a : α) (p : ℕ) :
    (h.alloc a).cell p = if p = h.size then some a else h.cell p := rfl

@[simp] theorem size_alloc (h : Heap α) (a : α) : (h.alloc a).size = h.size + 1 := rfl

@[simp] theorem cell_modify (h : Heap α) (p : ℕ) (f : α → α) (q : ℕ) :
    (h.modify p f).cell q = if q = p then (h.cell q).map f else h.cell q := rfl

@[simp] theorem cell_free (h : Heap α) (p q : ℕ) :
    (h.free p).cell q = if q = p then none else h.cell q := rfl

@[simp] theorem size_free (h : Heap α) (p : ℕ) : (h.free p).size = h.size := rfl

theorem lt_size {h : Heap α} {p : ℕ} {a : α} (hp : h.cell p = some a) : p < h.size := by
  by_contra hle
  simp [h.fresh p (Nat.le_of_not_lt hle)] at hp

@[simp] theorem cell_size (h : Heap α) : h.cell h.size = none := h.fresh _ (Nat.le_refl _)

end Heap

/-- The events so far, in order, each with the object it happened to. -/
structure Journal (κ ε : Type*) where
  entries : List (κ × ε)

namespace Journal

variable {κ ε : Type*} [DecidableEq κ]

def empty : Journal κ ε := ⟨[]⟩

def note (j : Journal κ ε) (k : κ) (e : ε) : Journal κ ε := ⟨j.entries ++ [(k, e)]⟩

/-- The events of one object, in order. -/
def story (j : Journal κ ε) (k : κ) : List ε :=
  (j.entries.filter fun e => e.1 = k).map Prod.snd

@[simp] theorem story_empty (k : κ) : (empty : Journal κ ε).story k = [] := rfl

@[simp] theorem story_note (j : Journal κ ε) (k : κ) (e : ε) (k' : κ) :
    (j.note k e).story k' = if k' = k then j.story k' ++ [e] else j.story k' := by
  by_cases h : k' = k
  · simp [note, story, h]
  · simp [note, story, h, Ne.symm h]

/-! ### Events of one kind, of all objects -/

variable {α : Type*} {f : ε → Option α} {j : Journal κ ε} {k : κ} {a : α}

/-- What `f` makes of the events, in order, each with its object. -/
def select (f : ε → Option α) (j : Journal κ ε) : List (κ × α) :=
  j.entries.filterMap fun e => (f e.2).map (e.1, ·)

omit [DecidableEq κ] in
theorem select_append {j' : Journal κ ε} {new : List (κ × ε)}
    (h : j'.entries = j.entries ++ new) :
    j'.select f = j.select f ++ (⟨new⟩ : Journal κ ε).select f := by
  rw [select, h, List.filterMap_append, select, select]

theorem mem_select : (k, a) ∈ j.select f ↔ ∃ e ∈ j.story k, f e = some a := by
  simp only [select, story, List.mem_filterMap, List.mem_map, List.mem_filter, decide_eq_true_eq]
  constructor
  · rintro ⟨⟨k', e⟩, he, heq⟩
    obtain ⟨a', ha, heq⟩ := Option.map_eq_some_iff.1 heq
    obtain ⟨rfl, rfl⟩ := Prod.mk.inj heq
    exact ⟨e, ⟨(k', e), ⟨he, rfl⟩, rfl⟩, ha⟩
  · rintro ⟨e, ⟨⟨k', e'⟩, ⟨he, rfl⟩, rfl⟩, ha⟩
    exact ⟨(k', e'), he, by rw [ha]; rfl⟩

theorem count_select : ((j.select f).map Prod.fst).count k = ((j.story k).filterMap f).length := by
  obtain ⟨entries⟩ := j
  unfold select story
  induction entries with
  | nil => rfl
  | cons e entries ih =>
    obtain ⟨k', e⟩ := e
    by_cases hk : k' = k <;> cases hf : f e <;> simp_all

end Journal

/-- Pairs with different first components that are positions in a list, where each pair that
counts finds an element that counts. -/
theorem countP_le_of_positions {α β : Type*} {p : α → Bool} {q : β → Bool} {xs : List (ℕ × α)}
    {ys : List β} (hkeys : (xs.map Prod.fst).Nodup)
    (h : ∀ k a, (k, a) ∈ xs → p a → ∃ b, ys[k]? = some b ∧ q b) :
    xs.countP (fun x => p x.2) ≤ ys.countP q := by
  have hpositions : ∀ ys : List β,
      ((List.range ys.length).filter fun k => (ys[k]?).any q).length = ys.countP q := by
    intro ys
    induction ys with
    | nil => rfl
    | cons y ys ih =>
      rw [List.length_cons, List.range_succ_eq_map, List.filter_cons, List.filter_map,
        List.countP_cons, ← ih]
      by_cases hy : q y <;> simp [hy, Function.comp_def]
  rw [← hpositions ys, List.countP_eq_length_filter]
  have hnodup : ((xs.filter fun x => p x.2).map Prod.fst).Nodup :=
    hkeys.sublist (List.filter_sublist.map _)
  have hsubset : (xs.filter fun x => p x.2).map Prod.fst ⊆
      (List.range ys.length).filter fun k => (ys[k]?).any q := by
    intro k hk
    obtain ⟨⟨k', a⟩, hmem, rfl⟩ := List.mem_map.1 hk
    obtain ⟨hmem, ha⟩ := List.mem_filter.1 hmem
    obtain ⟨b, hb, hq⟩ := h k' a hmem ha
    have hlt : k' < ys.length := (List.getElem?_eq_some_iff.1 hb).1
    rw [List.mem_filter, List.mem_range, hb]
    exact ⟨hlt, hq⟩
  simpa using hnodup.length_le_of_subset hsubset

end Objects
