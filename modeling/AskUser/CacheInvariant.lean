import AskUser.CacheRefinement

/-!
# The representation of the cache

What the two containers of `CapacityCache.h` promise each other, over whole sequences of calls and
for every hasher, injective or not. `Inv` is the promise; a call keeps it and says where the keys of
the usage list come from (`step_spec`), so a run of any length does (`run_spec`).

`Guarded` names the places where the code relies on it: `evict` takes the last key of the list and
erases what it finds in the map, and `splice` is given an iterator that was read from the map.
-/

namespace AskUser.Plugin.CapacityCache
open ByteText Lru

variable {κ ν : Type} {c : CapacityCache κ ν}

/-- The strings in `m_keyUsage`, most recently used first. -/
def usage (c : CapacityCache κ ν) : List Bytes := c.keyUsage.map Node.key

/-- What a call does to the usage list. An update and a successful `get` bring their key to the
front; whatever else is still there keeps its order. -/
def Reorders (c : CapacityCache κ ν) : Op κ ν → Out ν → CapacityCache κ ν → Prop
  | .get _, .value none, c' => c'.usage = c.usage
  | .get k, _, c' => ∃ rest, c'.usage = c.keyHasher k :: rest ∧ rest.Sublist c.usage
  | .update k _, _, c' => ∃ rest, c'.usage = c.keyHasher k :: rest ∧ rest.Sublist c.usage
  | .clear, _, c' => c'.usage = []

/-- Where the code relies on the agreement of the containers. -/
structure Guarded (c : CapacityCache κ ν) : Prop where
  /-- a full cache has a last key, and the map finds it -/
  evict : c.keyValue.keys.length = c.capacity →
    ∃ last, c.keyUsage.getLast? = some last ∧ last.key ∈ c.keyValue
  /-- an iterator in the map points to the node of its own key, and to no other node -/
  splice : ∀ {k v it}, c.keyValue.lookup k = some (v, it) →
    c.keyUsage.filter (fun n => n.it = it) = [⟨it, k⟩]

/-- A node of the list is the only one with its identity. -/
theorem filter_it {l : List Node} {n : Node} (hl : (l.map Node.it).Nodup) (hn : n ∈ l) :
    l.filter (fun m => m.it = n.it) = [n] := by
  obtain ⟨s, t, rfl⟩ := List.append_of_mem hn
  rw [List.map_append, List.map_cons, List.nodup_append, List.nodup_cons] at hl
  have hs : s.filter (fun m => m.it = n.it) = [] := List.filter_eq_nil_iff.2 fun m hm => by
    simpa using hl.2.2 m.it (List.mem_map_of_mem hm) n.it List.mem_cons_self
  have ht : t.filter (fun m => m.it = n.it) = [] := List.filter_eq_nil_iff.2 fun m hm => by
    simp only [decide_eq_true_eq]
    intro he
    exact hl.2.1.1 (he ▸ List.mem_map_of_mem hm)
  simp [hs, ht]

theorem Inv.guarded (h : c.Inv) (hcap : c.capacity ≠ 0) : c.Guarded where
  evict := fun hfull => by
    have hne : c.keyUsage ≠ [] := by
      intro hnil
      rw [h.length_eq, hnil] at hfull
      exact hcap hfull.symm
    obtain ⟨init, last, hsplit, -⟩ := evict_spec h hne
    exact ⟨last, by simp [hsplit], (h.mem _).2 (by simp [hsplit])⟩
  splice := fun hk => filter_it h.nodes (h.iter hk)

/-- The cache in which `update` stores: the order of what is left is kept. -/
theorem beforeStore_spec (h : c.Inv) (hcap : c.capacity ≠ 0) :
    ∃ c₁, c.beforeStore = some c₁ ∧ c₁.Inv ∧ c₁.capacity = c.capacity ∧
      c₁.keyHasher = c.keyHasher ∧ c₁.keyUsage.length < c.capacity ∧
      c₁.usage.Sublist c.usage := by
  by_cases hfull : c.keyUsage.length = c.capacity
  · obtain ⟨init, last, hsplit, hbefore, hinv⟩ := beforeStore_full h hcap hfull
    have hroom : init.length < c.capacity := by
      rw [hsplit, List.length_append, List.length_singleton] at hfull
      omega
    refine ⟨_, hbefore, hinv, rfl, rfl, hroom, ?_⟩
    simp only [usage, hsplit]
    exact (List.sublist_append_left init [last]).map Node.key
  · exact ⟨c, beforeStore_room h hfull, h, rfl, rfl, lt_of_le_of_ne h.size hfull,
      List.Sublist.refl _⟩

/-- **One call** on a cache with room for a key is defined, keeps the agreement, and moves no key
but its own. -/
theorem step_spec (h : c.Inv) (hcap : c.capacity ≠ 0) (op : Op κ ν) :
    ∃ out c', c.step op = some (out, c') ∧ c'.Inv ∧ c'.capacity = c.capacity ∧
      c'.keyHasher = c.keyHasher ∧ Reorders c op out c' := by
  cases op with
  | get k =>
    rcases get_spec h k with ⟨-, hget⟩ | ⟨v, it, -, hn, hget⟩
    · exact ⟨.value none, c, by simp [step, hget], h, rfl, rfl, rfl⟩
    · refine ⟨.value (some v), _, by simp [step, hget], h.moveFront hn, rfl, rfl, _, rfl, ?_⟩
      exact (List.erase_sublist).map Node.key
  | update k v =>
    obtain ⟨c₁, hbefore, h₁, hcap₁, hhash₁, hroom, hsub⟩ := beforeStore_spec h hcap
    obtain ⟨usage, it, fresh, hstore, husage, hinv⟩ :=
      store_spec h₁ (k := c₁.keyHasher k) (Or.inr (hcap₁ ▸ hroom)) v
    rw [hhash₁] at husage
    refine ⟨_, _, by rw [step, update_eq hcap, hbefore, Option.bind_some, hstore]; rfl, hinv,
      hcap₁, hhash₁, _, husage, ?_⟩
    exact List.filter_sublist.trans hsub
  | clear => exact ⟨.cleared, c.clear, rfl, inv_clear c, rfl, rfl, rfl⟩

/-- **A run** of any length is defined and keeps the agreement. -/
theorem run_spec (h : c.Inv) (hcap : c.capacity ≠ 0) (ops : List (Op κ ν)) :
    ∃ outs c', c.run ops = some (outs, c') ∧ c'.Inv ∧ c'.capacity = c.capacity ∧
      c'.keyHasher = c.keyHasher := by
  induction ops generalizing c with
  | nil => exact ⟨[], c, rfl, h, rfl, rfl⟩
  | cons op ops ih =>
    obtain ⟨out, c₁, hstep, h₁, hcap₁, hhash₁, -⟩ := step_spec h hcap op
    obtain ⟨outs, c₂, hrun, h₂, hcap₂, hhash₂⟩ := ih h₁ (hcap₁ ▸ hcap)
    exact ⟨out :: outs, c₂, by simp [run, hstep, hrun], h₂, hcap₂.trans hcap₁,
      hhash₂.trans hhash₁⟩

/-- **The representation invariant.** After any sequence of calls on a new cache the containers
agree, in the cache that `update` stores in as well; and the next call, whichever it is, is defined,
keeps that, and moves no key but its own. -/
theorem represented (keyHasher : κ → Bytes) {n : ℕ} (hn : 1 ≤ n) (ops : List (Op κ ν)) :
    ∃ outs c, (new keyHasher n).run ops = some (outs, c) ∧ c.Inv ∧ c.capacity = n ∧
      c.keyHasher = keyHasher ∧ c.Guarded ∧
      (∃ c₁, c.beforeStore = some c₁ ∧ c₁.Inv ∧ c₁.Guarded) ∧
      ∀ op, ∃ out c', c.step op = some (out, c') ∧ c'.Inv ∧ c'.keyUsage.length ≤ n ∧
        Reorders c op out c' := by
  obtain ⟨outs, c, hrun, hinv, hcap, hhash⟩ :=
    run_spec (c := (new keyHasher n : CapacityCache κ ν)) (Inv.new keyHasher n)
      (Nat.one_le_iff_ne_zero.1 hn) ops
  have hcap' : c.capacity = n := hcap
  have hne : c.capacity ≠ 0 := hcap' ▸ Nat.one_le_iff_ne_zero.1 hn
  refine ⟨outs, c, hrun, hinv, hcap', hhash, hinv.guarded hne, ?_, fun op => ?_⟩
  · obtain ⟨c₁, hbefore, h₁, hcap₁, -⟩ := beforeStore_spec hinv hne
    exact ⟨c₁, hbefore, h₁, h₁.guarded (hcap₁ ▸ hne)⟩
  · obtain ⟨out, c', hstep, h', hcap'', -, horder⟩ := step_spec hinv hne op
    exact ⟨out, c', hstep, h', by rw [← hcap', ← hcap'']; exact h'.size, horder⟩

/-- A hasher that makes one string of all keys: every update replaces the only entry. -/
theorem represented_constant_hasher : ∃ outs c,
    (new (fun _ : ℕ => ([] : Bytes)) 1).run [.update 1 10, .get 2, .update 3 30, .get 1] =
      some (outs, c) ∧ c.Inv ∧ outs =
        [.existed false, .value (some 10), .existed false, .value (some 30)] := by
  obtain ⟨outs, c, hrun, hinv, -⟩ :=
    represented (ν := ℕ) (fun _ : ℕ => ([] : Bytes)) (le_refl 1)
      [.update 1 10, .get 2, .update 3 30, .get 1]
  refine ⟨outs, c, hrun, hinv, ?_⟩
  have hout : ((new (fun _ : ℕ => ([] : Bytes)) 1).run
      [.update 1 10, .get 2, .update 3 30, .get 1]).map Prod.fst =
        some [.existed false, .value (some 10), .existed false, .value (some 30)] := by decide
  rw [hrun] at hout
  exact Option.some.inj hout

end AskUser.Plugin.CapacityCache
