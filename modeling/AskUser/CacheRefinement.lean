import AskUser.CapacityCache
import AskUser.Lib.Lru

/-!
# The capacity cache as a least-recently-used map

`CapacityCache.h` announces an "LRU cache container". The reference is `Lru.LruMap`, and the cache
is compared with it over whole sequences of calls, through an injective hasher.

* `Refines c l`: the usage list of `c` holds the hashes of the keys of `l` in the same order, and
  the two hold the same values;
* every call keeps the relation and has the reference's result, with one exception: an update of a
  cached key on a full cache (`HastyEviction`). There `update` evicts before it looks the key up,
  so the least recently used key is lost although nothing is inserted;
* `asLru_of_noHastyEviction` is the refinement over runs without such a step, and says that the
  first such step of a run is always visible.
-/

namespace AskUser.Plugin.CapacityCache
open ByteText Lru

variable {κ ν : Type}

/-! ### Sequences of calls -/

/-- One call, with its result. -/
def step (c : CapacityCache κ ν) : Op κ ν → Option (Out ν × CapacityCache κ ν)
  | .get k => (c.get k).map fun r => (.value r.1, r.2)
  | .update k v => (c.update k v).map fun r => (.existed r.1, r.2)
  | .clear => some (.cleared, c.clear)

/-- A sequence of calls, with their results in order. -/
def run (c : CapacityCache κ ν) : List (Op κ ν) → Option (List (Out ν) × CapacityCache κ ν)
  | [] => some ([], c)
  | op :: ops => (c.step op).bind fun r => (r.2.run ops).map fun q => (r.1 :: q.1, q.2)

/-- An update of a cached key on a full cache. -/
def HastyEviction (c : CapacityCache κ ν) : Op κ ν → Prop
  | .update k _ => c.keyValue.keys.length = c.capacity ∧ c.keyHasher k ∈ c.keyValue
  | _ => False

/-- No call of the sequence, in the cache it meets, is an update of a cached key on a full cache. -/
def NoHastyEviction (c : CapacityCache κ ν) : List (Op κ ν) → Prop
  | [] => True
  | op :: ops => ¬ c.HastyEviction op ∧ ∀ r ∈ c.step op, r.2.NoHastyEviction ops

instance (c : CapacityCache κ ν) (op : Op κ ν) : Decidable (c.HastyEviction op) :=
  match op with
  | .update _ _ => inferInstanceAs (Decidable (_ ∧ _))
  | .get _ => .isFalse id
  | .clear => .isFalse id

instance decidableNoHastyEviction : (c : CapacityCache κ ν) → (ops : List (Op κ ν)) →
    Decidable (c.NoHastyEviction ops)
  | _, [] => .isTrue trivial
  | c, op :: ops =>
    have := fun c => decidableNoHastyEviction c ops
    inferInstanceAs (Decidable (¬ c.HastyEviction op ∧ ∀ r ∈ c.step op, r.2.NoHastyEviction ops))

theorem run_append (c : CapacityCache κ ν) (ops ops' : List (Op κ ν)) :
    c.run (ops ++ ops') =
      (c.run ops).bind fun r => (r.2.run ops').map fun q => (r.1 ++ q.1, q.2) := by
  induction ops generalizing c with
  | nil => simp [run]
  | cons op ops ih =>
    cases h : c.step op with
    | none => simp [run, h]
    | some r =>
      cases h' : r.2.run ops with
      | none => simp [run, h, ih, h']
      | some q => simp [run, h, ih, h', Function.comp_def]

/-! ### One call -/

/-- The cache `c` represents the reference map `l`. -/
structure Refines [DecidableEq κ] (c : CapacityCache κ ν) (l : LruMap κ ν) : Prop where
  inv : c.Inv
  injective : Function.Injective c.keyHasher
  keys : c.keyUsage.map Node.key = l.keys.map c.keyHasher
  values : ∀ k v, l.lookup k = some v ↔ ∃ it, c.keyValue.lookup (c.keyHasher k) = some (v, it)

variable [DecidableEq κ] {c : CapacityCache κ ν} {l : LruMap κ ν}

theorem Refines.new {keyHasher : κ → Bytes} (hinj : Function.Injective keyHasher) (n : ℕ) :
    Refines (CapacityCache.new keyHasher n : CapacityCache κ ν) ∅ where
  inv := Inv.new keyHasher n
  injective := hinj
  keys := by simp [CapacityCache.new]
  values := by simp [CapacityCache.new]

theorem Refines.clear (h : Refines c l) : Refines c.clear (∅ : LruMap κ ν) where
  inv := inv_clear c
  injective := h.injective
  keys := by simp [CapacityCache.clear]
  values := by simp [CapacityCache.clear]

theorem Refines.mem (h : Refines c l) (k : κ) : c.keyHasher k ∈ c.keyValue ↔ k ∈ l := by
  rw [h.inv.mem, h.keys, List.mem_map_of_injective h.injective, AList.mem_keys]

theorem Refines.length (h : Refines c l) : c.keyUsage.length = l.keys.length := by
  rw [← List.length_map (f := Node.key), h.keys, List.length_map]

theorem Refines.full (h : Refines c l) :
    c.keyValue.keys.length = c.capacity ↔ l.keys.length = c.capacity := by
  rw [h.inv.length_eq, h.length]

/-- Moving a key to the front, on the hashes. -/
theorem Refines.front_keys (h : Refines c l) (k : κ) (v : ν) :
    c.keyHasher k :: (c.keyUsage.map Node.key).filter (fun k' => k' ≠ c.keyHasher k) =
      (l.insert k v).keys.map c.keyHasher := by
  rw [AList.keys_insert, List.map_cons, h.keys, List.filter_map,
    List.Nodup.erase_eq_filter l.keys_nodup]
  congr 2
  apply List.filter_congr
  intro x _
  by_cases hx : x = k <;> simp [h.injective.eq_iff, hx]

theorem Refines.get (h : Refines c l) (k : κ) :
    ∃ usage, c.get k = some ((Lru.get l k).1, { c with keyUsage := usage }) ∧
      Refines { c with keyUsage := usage } (Lru.get l k).2 := by
  rcases get_spec h.inv k with ⟨hk, hget⟩ | ⟨v, it, hk, hn, hget⟩
  · have hl : l.lookup k = none := by
      rw [AList.lookup_eq_none, ← h.mem, ← AList.lookup_eq_none]
      exact hk
    refine ⟨c.keyUsage, ?_, ?_⟩ <;> simp only [Lru.get, hl]
    · exact hget
    · exact h
  · have hl : l.lookup k = some v := (h.values k v).2 ⟨it, hk⟩
    refine ⟨_, by simp only [Lru.get, hl]; exact hget, ?_⟩
    simp only [Lru.get, hl]
    exact
      { inv := h.inv.moveFront hn
        injective := h.injective
        keys := by
          rw [← h.front_keys, List.map_cons, map_key_erase h.inv.keys hn]
        values := by
          intro k' v'
          rw [← h.values]
          by_cases hkk : k' = k
          · subst hkk; rw [AList.lookup_insert, hl]
          · rw [AList.lookup_insert_ne hkk] }

/-- `store` after any eviction: the key comes to the front of the reference. -/
theorem Refines.store (h : Refines c l) {k : κ} (hroom : k ∈ l ∨ l.keys.length < c.capacity)
    (v : ν) :
    ∃ c', c.store (c.keyHasher k) v = some (decide (k ∈ l), c') ∧ c'.capacity = c.capacity ∧
      c'.keyHasher = c.keyHasher ∧ Refines c' (l.insert k v) := by
  have hroom' : c.keyHasher k ∈ c.keyValue ∨ c.keyUsage.length < c.capacity := by
    rwa [h.mem, h.length]
  obtain ⟨usage, it, fresh, hstore, husage, hinv⟩ := store_spec h.inv hroom' v
  refine ⟨{ c with
      keyUsage := usage
      keyValue := c.keyValue.insert (c.keyHasher k) (v, it)
      fresh := fresh }, ?_, rfl, rfl, hinv, h.injective, ?_, ?_⟩
  · rw [hstore, decide_eq_decide.2 (h.mem k)]
  · rw [← h.front_keys]
    exact husage
  · intro k' v'
    by_cases hkk : k' = k
    · subst hkk
      simp only [AList.lookup_insert, Option.some.injEq, Prod.mk.injEq]
      exact ⟨fun hv => ⟨it, hv, rfl⟩, fun ⟨_, hv, _⟩ => hv⟩
    · have hne : c.keyHasher k' ≠ c.keyHasher k := fun he => hkk (h.injective he)
      rw [AList.lookup_insert_ne hkk, AList.lookup_insert_ne hne]
      exact h.values k' v'

/-- An eviction drops the last pair of the reference. -/
theorem Refines.evict (h : Refines c l) {init : List Node} {last : Node}
    (hsplit : c.keyUsage = init ++ [last])
    (hinv : ({ c with keyUsage := init, keyValue := c.keyValue.erase last.key } :
      CapacityCache κ ν).Inv) :
    Refines { c with keyUsage := init, keyValue := c.keyValue.erase last.key }
      (dropLast l) := by
  have hkeys : init.map Node.key ++ [last.key] = l.keys.map c.keyHasher := by
    rw [← h.keys, hsplit]
    simp
  have hinit : init.map Node.key = (dropLast l).keys.map c.keyHasher := by
    rw [keys_dropLast, List.map_dropLast, ← hkeys, List.dropLast_concat]
  refine ⟨hinv, h.injective, hinit, fun k v => ?_⟩
  have hmem : k ∈ dropLast l ↔ c.keyHasher k ∈ init.map Node.key := by
    rw [AList.mem_keys, ← List.mem_map_of_injective h.injective, ← hinit]
  by_cases hk : k ∈ dropLast l
  · have hne : c.keyHasher k ≠ last.key := by
      have hnodup := h.inv.keys
      rw [hsplit, List.map_append, List.nodup_append] at hnodup
      exact hnodup.2.2 _ (hmem.1 hk) _ (by simp)
    rw [AList.lookup_erase_ne hne, lookup_dropLast hk, h.values]
  · have hk' : c.keyHasher k ∉ c.keyValue.erase last.key := by
      rw [hinv.mem, ← hmem]
      exact hk
    simp [AList.lookup_eq_none.2 hk, AList.lookup_eq_none.2 hk']

/-- An update of a full cache stores in what the eviction has left. -/
theorem Refines.update_full (h : Refines c l) (hcap : c.capacity ≠ 0)
    (hfull : l.keys.length = c.capacity) (k : κ) (v : ν) :
    ∃ c', c.update k v = some (decide (k ∈ dropLast l), c') ∧ c'.capacity = c.capacity ∧
      c'.keyHasher = c.keyHasher ∧ Refines c' ((dropLast l).insert k v) := by
  obtain ⟨init, last, hsplit, hbefore, hinv⟩ :=
    beforeStore_full h.inv hcap (h.length.trans hfull)
  have hevict := h.evict hsplit hinv
  have hroom : (dropLast l).keys.length < c.capacity := by
    rw [keys_dropLast, List.length_dropLast]
    omega
  obtain ⟨c', hstore, hcap', hhash, href⟩ := hevict.store (k := k) (Or.inr hroom) v
  exact ⟨c', by rw [update_eq hcap, hbefore, Option.bind_some, hstore], hcap', hhash, href⟩

/-- An update of a cache with room stores at once. -/
theorem Refines.update_room (h : Refines c l) (hcap : c.capacity ≠ 0)
    (hroom : l.keys.length < c.capacity) (k : κ) (v : ν) :
    ∃ c', c.update k v = some (decide (k ∈ l), c') ∧ c'.capacity = c.capacity ∧
      c'.keyHasher = c.keyHasher ∧ Refines c' (l.insert k v) := by
  have hne : c.keyUsage.length ≠ c.capacity := by
    rw [h.length]
    omega
  obtain ⟨c', hstore, hcap', hhash, href⟩ := h.store (k := k) (Or.inr hroom) v
  exact ⟨c', by rw [update_eq hcap, beforeStore_room h.inv hne, Option.bind_some, hstore], hcap',
    hhash, href⟩

/-- **One call.** Unless it is an update of a cached key on a full cache, a call has the result of
the reference and keeps the representation. -/
theorem Refines.step (h : Refines c l) {op : Op κ ν} (hop : ¬ c.HastyEviction op) :
    ∃ c', c.step op = some ((Lru.step c.capacity l op).1, c') ∧ c'.capacity = c.capacity ∧
      c'.keyHasher = c.keyHasher ∧ Refines c' (Lru.step c.capacity l op).2 := by
  cases op with
  | get k =>
    obtain ⟨usage, hget, href⟩ := h.get k
    exact ⟨{ c with keyUsage := usage }, by simp [CapacityCache.step, hget, Lru.step], rfl, rfl,
      href⟩
  | clear => exact ⟨c.clear, rfl, rfl, rfl, h.clear⟩
  | update k v =>
    simp only [CapacityCache.step, Lru.step]
    have hsize : l.keys.length ≤ c.capacity := h.length ▸ h.inv.size
    by_cases hcap : c.capacity = 0
    · -- nothing is stored, by the cache or by the reference
      have hnil : l.keys = [] := List.length_eq_zero_iff.1 (by omega)
      obtain rfl : l = ∅ := AList.ext (List.map_eq_nil_iff.1 hnil)
      refine ⟨c, by simp [CapacityCache.update, hcap, Lru.update], rfl, rfl, ?_⟩
      rw [hcap]
      exact h
    · by_cases hfull : l.keys.length = c.capacity
      · -- the key is new, so the reference drops its last pair as well
        have hnot : k ∉ l := fun hk => hop ⟨h.full.2 hfull, (h.mem k).2 hk⟩
        have hne : l.entries ≠ [] := by
          intro hnil
          rw [length_keys, hnil] at hfull
          exact hcap hfull.symm
        have hdrop : k ∉ dropLast l := by
          rw [AList.mem_keys, keys_dropLast]
          exact fun hin => hnot (AList.mem_keys.2 (List.mem_of_mem_dropLast hin))
        obtain ⟨c', hupdate, hcap', hhash, href⟩ := h.update_full hcap hfull k v
        rw [← dropLast_insert hnot hne] at href
        refine ⟨c', by simp [hupdate, Lru.update, hnot, hdrop], hcap', hhash, ?_⟩
        rw [update_of_notMem hnot, if_pos (by omega)]
        exact href
      · obtain ⟨c', hupdate, hcap', hhash, href⟩ := h.update_room hcap (by omega) k v
        by_cases hk : k ∈ l
        · exact ⟨c', by simp [hupdate, Lru.update, hk], hcap', hhash, by
            simpa [Lru.update, hk] using href⟩
        · refine ⟨c', by simp [hupdate, Lru.update, hk], hcap', hhash, ?_⟩
          rw [update_of_notMem hk, if_neg (by omega)]
          exact href

/-! ### Runs -/

/-- **Runs.** Without an update of a cached key on a full cache, the results are the reference's,
and the cache reached represents the reference map reached. -/
theorem Refines.run (h : Refines c l) {ops : List (Op κ ν)} (hops : c.NoHastyEviction ops) :
    ∃ c', c.run ops = some ((Lru.run c.capacity l ops).1, c') ∧ c'.capacity = c.capacity ∧
      c'.keyHasher = c.keyHasher ∧ Refines c' (Lru.run c.capacity l ops).2 := by
  induction ops generalizing c l with
  | nil => exact ⟨c, rfl, rfl, rfl, h⟩
  | cons op ops ih =>
    obtain ⟨hop, hops⟩ := hops
    obtain ⟨c₁, hstep, hcap₁, hhash₁, h₁⟩ := h.step hop
    obtain ⟨c₂, hrun, hcap₂, hhash₂, h₂⟩ := ih h₁ (hops _ hstep)
    rw [hcap₁] at hrun h₂
    refine ⟨c₂, ?_, hcap₂.trans hcap₁, hhash₂.trans hhash₁, h₂⟩
    simp [CapacityCache.run, hstep, hrun, Lru.run]

/-- An update of a cached key on a full cache is visible: in its own result, or in the next read of
the key that was least recently used. -/
theorem Refines.hasty_visible (h : Refines c l) {op : Op κ ν} (hop : c.HastyEviction op) :
    ∃ k', (c.run [op, .get k']).map Prod.fst ≠ some (Lru.run c.capacity l [op, .get k']).1 := by
  cases op with
  | get k => exact absurd hop id
  | clear => exact absurd hop id
  | update k v =>
    obtain ⟨hfull, hk⟩ := hop
    have hkl : k ∈ l := (h.mem k).1 hk
    rw [h.full] at hfull
    have hcap : c.capacity ≠ 0 := by
      intro h0
      rw [h0] at hfull
      exact absurd (AList.mem_keys.1 hkl) (by simp [List.length_eq_zero_iff.1 hfull])
    obtain ⟨c', hupdate, -, -, href⟩ := h.update_full hcap hfull k v
    -- the last key of the reference, which the eviction has dropped
    have hne : l.keys ≠ [] := List.ne_nil_of_mem (AList.mem_keys.1 hkl)
    refine ⟨l.keys.getLast hne, fun heq => ?_⟩
    have hlast : l.keys.getLast hne ∉ dropLast l := by
      rw [AList.mem_keys, keys_dropLast]
      have hnodup := l.keys_nodup
      rw [← List.dropLast_append_getLast hne, List.nodup_append] at hnodup
      exact fun hin => hnodup.2.2 _ hin _ (by simp) rfl
    obtain ⟨usage, hget, -⟩ := href.get (l.keys.getLast hne)
    simp only [CapacityCache.run, CapacityCache.step, hupdate, Option.map_some, Option.bind_some,
      hget, Lru.run, Lru.step, Lru.update, hkl, if_true, Option.some.injEq, List.cons.injEq,
      Out.existed.injEq, Out.value.injEq, decide_eq_true_eq, and_true] at heq
    obtain ⟨hkd, hval⟩ := heq
    -- the update found its key, so its key is not the last one, which only the reference still has
    have hkl' : l.keys.getLast hne ≠ k := fun he => hlast (he ▸ hkd)
    have hmiss : ((dropLast l).insert k v).lookup (l.keys.getLast hne) = none := by
      rw [AList.lookup_insert_ne hkl', AList.lookup_eq_none.2 hlast]
    have hhit : ((l.insert k v).lookup (l.keys.getLast hne)).isSome := by
      rw [AList.lookup_insert_ne hkl', AList.lookup_isSome, AList.mem_keys]
      exact List.getLast_mem hne
    obtain ⟨w, hw⟩ := Option.isSome_iff_exists.1 hhit
    simp [Lru.get, hmiss, hw] at hval

/-- What the header announces, for one sequence of calls on a new cache of capacity `n`: the
results of the reference; no update of a cached key drops a key; and a key survives as long as
fewer than `n` distinct other keys have been used since it was. -/
structure AsLru (keyHasher : κ → Bytes) (n : ℕ) (ops : List (Op κ ν)) : Prop where
  results : ∃ c, (new keyHasher n).run ops = some ((Lru.run n ∅ ops).1, c)
  keeps : ∀ pre k v post, ops = pre ++ .update k v :: post → ∀ outs c,
    (new keyHasher n).run pre = some (outs, c) → keyHasher k ∈ c.keyValue →
    ∀ b c', c.update k v = some (b, c') → ∀ k', keyHasher k' ∈ c.keyValue →
      keyHasher k' ∈ c'.keyValue
  survives : ∀ pre op post, ops = pre ++ op :: post → .clear ∉ post → ∀ outs c,
    (new keyHasher n).run pre = some (outs, c) → ∀ out c', c.step op = some (out, c') →
    ∀ outs' c'', c'.run post = some (outs', c'') → ∀ k, usedBy op out = some k →
    ((usedKeys post outs').toFinset.erase k).card < n →
      ∃ v d, c''.get k = some (some v, d)

omit [DecidableEq κ] in
theorem NoHastyEviction.append {c : CapacityCache κ ν} {pre post : List (Op κ ν)}
    (h : c.NoHastyEviction (pre ++ post)) :
    c.NoHastyEviction pre ∧ ∀ r, c.run pre = some r → r.2.NoHastyEviction post := by
  induction pre generalizing c with
  | nil => exact ⟨trivial, fun r hr => by cases hr; exact h⟩
  | cons op pre ih =>
    obtain ⟨hop, hrest⟩ := h
    refine ⟨⟨hop, fun r hr => (ih (hrest r hr)).1⟩, fun r hr => ?_⟩
    simp only [CapacityCache.run, Option.bind_eq_some_iff, Option.map_eq_some_iff] at hr
    obtain ⟨r₁, hr₁, q, hq, rfl⟩ := hr
    exact (ih (hrest r₁ hr₁)).2 q hq

/-- **The cache is a least-recently-used map over every run that never updates a cached key while
the cache is full**, and no longer than that: after such a run, an update of a cached key on the
full cache is visible at once or in the next read of some key. -/
theorem asLru_of_noHastyEviction {keyHasher : κ → Bytes} (hinj : Function.Injective keyHasher)
    (n : ℕ) (ops : List (Op κ ν)) (hops : (new keyHasher n).NoHastyEviction ops) :
    AsLru keyHasher n ops ∧
      ∀ outs c, (new keyHasher n).run ops = some (outs, c) → ∀ op, c.HastyEviction op →
        ∃ k', ¬ AsLru keyHasher n (ops ++ [op, .get k']) := by
  -- every cache on the way represents the reference map there
  have reach : ∀ pre post, ops = pre ++ post →
      ∀ outs c, (new keyHasher n).run pre = some (outs, c) →
      outs = (Lru.run n ∅ pre).1 ∧ c.capacity = n ∧ c.keyHasher = keyHasher ∧
        Refines c (Lru.run n ∅ pre).2 ∧ c.NoHastyEviction post := by
    rintro pre post rfl outs c hrun
    obtain ⟨c', hrun', hcap, hhash, href⟩ := (Refines.new hinj n).run hops.append.1
    rw [hrun] at hrun'
    simp only [Option.some.injEq, Prod.mk.injEq] at hrun'
    obtain ⟨rfl, rfl⟩ := hrun'
    exact ⟨rfl, hcap, hhash, href, hops.append.2 _ hrun⟩
  refine ⟨⟨?_, ?_, ?_⟩, ?_⟩
  · obtain ⟨c, hrun, -⟩ := (Refines.new hinj n).run hops
    exact ⟨c, hrun⟩
  · rintro pre k v post rfl outs c hrun hk b c' hupdate k' hk'
    obtain ⟨-, hcap, rfl, href, hop, -⟩ := reach pre _ rfl outs c hrun
    obtain ⟨d, hstep, -, hhash, hd⟩ := href.step hop
    simp only [CapacityCache.step, hupdate, Option.map_some, Option.some.injEq,
      Prod.mk.injEq] at hstep
    obtain ⟨-, rfl⟩ := hstep
    rw [← hhash, hd.mem]
    exact mem_update_of_mem ((href.mem k).1 hk) ((href.mem k').1 hk') v
  · rintro pre op post rfl hclear outs c hrun out c' hstep outs' c'' hrun' k hused hcard
    obtain ⟨-, rfl, rfl, href, hop, hpost⟩ := reach pre _ rfl outs c hrun
    obtain ⟨d, hstep', hcap, hhash, hd⟩ := href.step hop
    rw [hstep, Option.some.injEq, Prod.mk.injEq] at hstep'
    obtain ⟨rfl, rfl⟩ := hstep'
    obtain ⟨e, hrun'', -, hhash', he⟩ := hd.run (hpost _ hstep)
    rw [hrun', Option.some.injEq, Prod.mk.injEq, hcap] at hrun''
    obtain ⟨rfl, rfl⟩ := hrun''
    have hhead := step_head (fun h0 => by rw [h0] at hcard; exact absurd hcard (Nat.not_lt_zero _))
      hused
    have hmem := run_survives hhead hclear hcard
    rw [hcap] at he
    obtain ⟨v, hv⟩ := Option.isSome_iff_exists.1 (AList.lookup_isSome.2 hmem)
    obtain ⟨usage, hget, -⟩ := he.get k
    simp only [Lru.get, hv] at hget
    exact ⟨v, _, hget⟩
  · intro outs c hrun op hop
    obtain ⟨hout, rfl, -, href, -⟩ := reach ops [] (by simp) outs c hrun
    obtain ⟨k', hk'⟩ := href.hasty_visible hop
    refine ⟨k', fun h => hk' ?_⟩
    obtain ⟨d, hd⟩ := h.results
    rw [CapacityCache.run_append, hrun, Option.bind_some, Lru.run_append, hout] at hd
    cases hlast : c.run [op, .get k'] with
    | none => simp [hlast] at hd
    | some q =>
      simp only [hlast, Option.map_some, Option.some.injEq, Prod.mk.injEq,
        List.append_cancel_left_eq] at hd
      simp [hd.1]

/-- A run of a cache of two keys that reads, evicts and updates a key while there is room. -/
theorem asLru_two_keys :
    AsLru (id : Bytes → Bytes) 2
      [.update [1] 10, .update [1] 11, .update [2] 20, .get [1], .update [3] 30, .get [2]] :=
  (asLru_of_noHastyEviction Function.injective_id 2 _ (by decide)).1

/-- Two keys in a cache of two, and an update of the more recent one: the other one is gone. -/
theorem not_asLru_update_cached :
    ¬ AsLru (id : Bytes → Bytes) 2 [.update [1] 10, .update [2] 20, .update [2] 21, .get [1]] := by
  rintro ⟨⟨c, hc⟩, -, -⟩
  have hrun : ((new (id : Bytes → Bytes) 2).run
      [.update [1] 10, .update [2] 20, .update [2] 21, .get [1]]).map Prod.fst =
        some [.existed false, .existed false, .existed true, .value none] := by decide
  simp only [hc, Option.map_some, Option.some.injEq] at hrun
  exact absurd hrun (by decide)

end AskUser.Plugin.CapacityCache
