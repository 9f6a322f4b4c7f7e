import AskUser.Lib.Numeral
import Mathlib.Data.List.AList

/-!
# The capacity cache

`CapacityCache.h`: a list of the cached keys, most recently used first (`m_keyUsage`), and a map
from the cached keys to their values and to iterators into the list (`m_keyValue`). Keys are the
strings that the cache's hasher makes of the caller's keys.

* a list node has an identity of its own, and an iterator is the identity of a node, so that a
  dead iterator can be told from a live one;
* the operations return `none` where the source has undefined behaviour: `back()` of an empty
  list, `erase(end())`, and `splice` of an iterator that is not in the list;
* `CapacityCache.Inv` is the agreement of the two containers. It holds at the start and each
  operation keeps it, so none of the undefined cases is ever reached (`get_spec`, `evict_spec`,
  `update_spec`).

A cache of capacity zero stores nothing, and `update` on a full cache evicts before it looks
whether the key is there.
-/

namespace AskUser.Plugin
open ByteText

/-- A node of `m_keyUsage`: its identity, and the string it holds. -/
structure Node where
  it : ℕ
  key : Bytes
  deriving DecidableEq

/-- The cache. `fresh` is the identity of the next list node. -/
structure CapacityCache (κ ν : Type) where
  capacity : ℕ
  keyHasher : κ → Bytes
  keyUsage : List Node
  keyValue : AList (fun _ : Bytes => ν × ℕ)
  fresh : ℕ

/-- `CACHE_DEFAULT_CAPACITY`. -/
def cacheDefaultCapacity : ℕ := 100

/-- `list::splice` of the node at an iterator to the front of its own list. -/
def splice (l : List Node) (it : ℕ) : Option (List Node) :=
  match l.find? (fun n => n.it = it) with
  | none => none
  | some n => some (n :: l.erase n)

namespace CapacityCache

variable {κ ν : Type}

/-- The constructor. -/
def new (keyHasher : κ → Bytes) (capacity : ℕ) : CapacityCache κ ν :=
  ⟨capacity, keyHasher, [], ∅, 0⟩

/-- `get`: the value on a hit, and the cache after it. -/
def get (c : CapacityCache κ ν) (key : κ) : Option (Option ν × CapacityCache κ ν) :=
  match c.keyValue.lookup (c.keyHasher key) with
  | none => some (none, c)
  | some (value, usageIt) =>
    match splice c.keyUsage usageIt with
    | none => none
    | some keyUsage => some (some value, { c with keyUsage := keyUsage })

def clear (c : CapacityCache κ ν) : CapacityCache κ ν :=
  { c with keyUsage := [], keyValue := ∅ }

def evict (c : CapacityCache κ ν) : Option (CapacityCache κ ν) :=
  match c.keyUsage.getLast? with
  | none => none
  | some lastUsed =>
    if lastUsed.key ∈ c.keyValue then
      some { c with
        keyUsage := c.keyUsage.dropLast
        keyValue := c.keyValue.erase lastUsed.key }
    else none

/-- The part of `update` after the eviction: find or push the key, then write its map entry, with
`m_keyUsage.begin()` as its iterator. -/
def store (c : CapacityCache κ ν) (cacheKey : Bytes) (value : ν) :
    Option (Bool × CapacityCache κ ν) :=
  match c.keyValue.lookup cacheKey with
  | some (_, usageIt) =>
    match splice c.keyUsage usageIt with
    | none => none
    | some [] => none
    | some (front :: keyUsage) =>
      some (true, { c with
        keyUsage := front :: keyUsage
        keyValue := c.keyValue.insert cacheKey (value, front.it) })
  | none =>
    some (false, { c with
      keyUsage := ⟨c.fresh, cacheKey⟩ :: c.keyUsage
      keyValue := c.keyValue.insert cacheKey (value, c.fresh)
      fresh := c.fresh + 1 })

/-- `update`: whether the key was found, and the cache after it. -/
def update (c : CapacityCache κ ν) (key : κ) (value : ν) : Option (Bool × CapacityCache κ ν) :=
  if c.capacity = 0 then some (false, c)
  else if c.keyValue.keys.length = c.capacity then
    match c.evict with
    | none => none
    | some c => c.store (c.keyHasher key) value
  else c.store (c.keyHasher key) value

/-! ### The agreement of the two containers -/

/-- The two containers agree: they hold the same distinct keys, every stored iterator points to the
node of its own key, node identities are distinct and not ahead of the counter, and the capacity
is respected. -/
structure Inv (c : CapacityCache κ ν) : Prop where
  nodes : (c.keyUsage.map Node.it).Nodup
  keys : (c.keyUsage.map Node.key).Nodup
  mem : ∀ k, k ∈ c.keyValue ↔ k ∈ c.keyUsage.map Node.key
  iter : ∀ {k v it}, c.keyValue.lookup k = some (v, it) → (⟨it, k⟩ : Node) ∈ c.keyUsage
  fresh : ∀ n ∈ c.keyUsage, n.it < c.fresh
  size : c.keyUsage.length ≤ c.capacity

variable {c : CapacityCache κ ν}

theorem Inv.new (keyHasher : κ → Bytes) (capacity : ℕ) :
    (CapacityCache.new keyHasher capacity : CapacityCache κ ν).Inv := by
  constructor <;> simp [CapacityCache.new]

theorem inv_clear (c : CapacityCache κ ν) : c.clear.Inv := by
  constructor <;> simp [CapacityCache.clear]

theorem Inv.length_eq (h : c.Inv) : c.keyValue.keys.length = c.keyUsage.length := by
  have hperm : c.keyValue.keys.Perm (c.keyUsage.map Node.key) :=
    (List.perm_ext_iff_of_nodup c.keyValue.keys_nodup h.keys).2 fun k => by
      rw [← AList.mem_keys, h.mem]
  rw [hperm.length_eq, List.length_map]

/-- Erasing a node of a list with distinct keys removes its key from the keys. -/
theorem map_key_erase {l : List Node} {n : Node} (hl : (l.map Node.key).Nodup) (hn : n ∈ l) :
    (l.erase n).map Node.key = (l.map Node.key).filter (fun k => k ≠ n.key) := by
  induction l with
  | nil => simp at hn
  | cons m l ih =>
    rw [List.map_cons, List.nodup_cons] at hl
    by_cases hmn : m = n
    · subst hmn
      have hfilter : (l.map Node.key).filter (fun k => k ≠ m.key) = l.map Node.key :=
        List.filter_eq_self.2 fun k hk => by
          simp only [decide_eq_true_eq]
          rintro rfl
          exact hl.1 hk
      simp only [List.erase_cons_head, List.map_cons, hfilter,
        List.filter_cons_of_neg (p := fun k => decide (k ≠ m.key)) (a := m.key) (by simp)]
    · have hn' : n ∈ l := (List.mem_cons.1 hn).resolve_left (Ne.symm hmn)
      have hkey : m.key ≠ n.key := fun h => hl.1 (h ▸ List.mem_map_of_mem hn')
      rw [List.erase_cons_tail (by simpa using hmn), List.map_cons, ih hl.2 hn', List.map_cons,
        List.filter_cons_of_pos (by simpa using hkey)]

/-- A live iterator: its node comes to the front. -/
theorem splice_eq {l : List Node} {n : Node} (hl : (l.map Node.it).Nodup) (hn : n ∈ l) :
    splice l n.it = some (n :: l.erase n) := by
  have hfind : l.find? (fun m => m.it = n.it) = some n := by
    rw [List.find?_eq_some_iff_append]
    obtain ⟨s, t, rfl⟩ := List.append_of_mem hn
    refine ⟨by simp, s, t, rfl, fun m hm => ?_⟩
    rw [List.map_append, List.map_cons, List.nodup_append] at hl
    simpa using hl.2.2 m.it (List.mem_map_of_mem hm) n.it (by simp)
  simp [splice, hfind]

/-- Moving a node of the list to the front keeps the agreement. -/
theorem Inv.moveFront (h : c.Inv) {n : Node} (hn : n ∈ c.keyUsage) :
    ({ c with keyUsage := n :: c.keyUsage.erase n } : CapacityCache κ ν).Inv := by
  have hperm : (n :: c.keyUsage.erase n).Perm c.keyUsage := (List.perm_cons_erase hn).symm
  exact
    { nodes := (hperm.map Node.it).nodup_iff.2 h.nodes
      keys := (hperm.map Node.key).nodup_iff.2 h.keys
      mem := fun k => (h.mem k).trans (hperm.map Node.key).mem_iff.symm
      iter := fun hk => hperm.mem_iff.2 (h.iter hk)
      fresh := fun m hm => h.fresh m (hperm.mem_iff.1 hm)
      size := hperm.length_eq.trans_le h.size }

/-- `get` never meets a dead iterator: it misses and changes nothing, or it hits and moves the
node of the key to the front. -/
theorem get_spec (h : c.Inv) (key : κ) :
    (c.keyValue.lookup (c.keyHasher key) = none ∧ c.get key = some (none, c)) ∨
      ∃ v it, c.keyValue.lookup (c.keyHasher key) = some (v, it) ∧
        (⟨it, c.keyHasher key⟩ : Node) ∈ c.keyUsage ∧
        c.get key = some (some v, { c with
          keyUsage := ⟨it, c.keyHasher key⟩ :: c.keyUsage.erase ⟨it, c.keyHasher key⟩ }) := by
  cases hk : c.keyValue.lookup (c.keyHasher key) with
  | none => exact Or.inl ⟨rfl, by simp [get, hk]⟩
  | some p =>
    obtain ⟨v, it⟩ := p
    have hn := h.iter hk
    have hs := splice_eq h.nodes hn
    exact Or.inr ⟨v, it, rfl, hn, by simp [get, hk, hs]⟩

/-- The eviction of a cache that is not empty: the last node goes, and its map entry. -/
theorem evict_spec (h : c.Inv) (hne : c.keyUsage ≠ []) :
    ∃ init last, c.keyUsage = init ++ [last] ∧
      c.evict = some { c with keyUsage := init, keyValue := c.keyValue.erase last.key } ∧
      ({ c with keyUsage := init, keyValue := c.keyValue.erase last.key } :
        CapacityCache κ ν).Inv := by
  obtain ⟨init, last, hsplit⟩ : ∃ init last, c.keyUsage = init ++ [last] :=
    ⟨_, _, (List.dropLast_append_getLast hne).symm⟩
  have hmem : last.key ∈ c.keyValue := (h.mem _).2 (by rw [hsplit]; simp)
  have hkeys : (init.map Node.key ++ [last.key]).Nodup := by simpa [hsplit] using h.keys
  have hlast : last.key ∉ init.map Node.key := fun hin =>
    (List.nodup_append.1 hkeys).2.2 _ hin _ (by simp) rfl
  refine ⟨init, last, hsplit, by simp [evict, hsplit, hmem], ?_⟩
  exact
    { nodes := by
        have := h.nodes
        rw [hsplit, List.map_append] at this
        exact (List.nodup_append.1 this).1
      keys := (List.nodup_append.1 hkeys).1
      mem := by
        intro k
        rw [AList.mem_erase, h.mem, hsplit, List.map_append, List.mem_append]
        constructor
        · rintro ⟨hne, hin | hin⟩
          · exact hin
          · exact absurd (by simpa using hin) hne
        · intro hin
          exact ⟨by rintro rfl; exact hlast hin, Or.inl hin⟩
      iter := fun {k v it} hk => by
        have hne : k ≠ last.key := by rintro rfl; simp at hk
        rw [AList.lookup_erase_ne hne] at hk
        have hin := h.iter hk
        rw [hsplit, List.mem_append, List.mem_singleton] at hin
        rcases hin with hin | hin
        · exact hin
        · exact absurd (congrArg Node.key hin) hne
      fresh := fun n hn => h.fresh n (by rw [hsplit]; simp [hn])
      size := by
        have := h.size
        rw [hsplit, List.length_append] at this
        exact (Nat.le_add_right _ _).trans this }

/-- `store` on a key that is there: its node comes to the front, with the new value. -/
theorem store_present (h : c.Inv) {k : Bytes} {v : ν} {it : ℕ}
    (hk : c.keyValue.lookup k = some (v, it)) (value : ν) :
    c.store k value = some (true, { c with
      keyUsage := ⟨it, k⟩ :: c.keyUsage.erase ⟨it, k⟩
      keyValue := c.keyValue.insert k (value, it) }) := by
  have hs := splice_eq h.nodes (h.iter hk)
  simp [store, hk, hs]

/-- `store` on an absent key: a new node in front. -/
theorem store_absent {k : Bytes} (hk : c.keyValue.lookup k = none) (value : ν) :
    c.store k value = some (false, { c with
      keyUsage := ⟨c.fresh, k⟩ :: c.keyUsage
      keyValue := c.keyValue.insert k (value, c.fresh)
      fresh := c.fresh + 1 }) := by
  simp [store, hk]

/-- Writing a new value to an entry, with the iterator it had, keeps the agreement. -/
theorem Inv.rewrite (h : c.Inv) {k : Bytes} {it : ℕ} (hn : (⟨it, k⟩ : Node) ∈ c.keyUsage)
    (value : ν) :
    ({ c with keyValue := c.keyValue.insert k (value, it) } : CapacityCache κ ν).Inv where
  nodes := h.nodes
  keys := h.keys
  mem := by
    intro k'
    rw [← h.mem, AList.mem_insert, or_iff_right_of_imp]
    rintro rfl
    exact (h.mem _).2 (List.mem_map_of_mem hn)
  iter := fun {k' v' it'} hk' => by
    by_cases hkk : k' = k
    · subst hkk
      rw [AList.lookup_insert, Option.some.injEq, Prod.mk.injEq] at hk'
      exact hk'.2 ▸ hn
    · rw [AList.lookup_insert_ne hkk] at hk'
      exact h.iter hk'
  fresh := h.fresh
  size := h.size

/-- A new node for an absent key, with its entry, keeps the agreement where there is room. -/
theorem Inv.push (h : c.Inv) {k : Bytes} (hk : k ∉ c.keyValue)
    (hroom : c.keyUsage.length < c.capacity) (value : ν) :
    ({ c with
      keyUsage := ⟨c.fresh, k⟩ :: c.keyUsage
      keyValue := c.keyValue.insert k (value, c.fresh)
      fresh := c.fresh + 1 } : CapacityCache κ ν).Inv where
  nodes := by
    rw [List.map_cons, List.nodup_cons]
    refine ⟨fun hin => ?_, h.nodes⟩
    obtain ⟨n, hn, hit⟩ := List.mem_map.1 hin
    exact absurd hit (Nat.ne_of_lt (h.fresh n hn))
  keys := List.nodup_cons.2 ⟨fun hin => hk ((h.mem k).2 hin), h.keys⟩
  mem := fun k' => by rw [AList.mem_insert, h.mem, List.map_cons, List.mem_cons]
  iter := fun {k' v' it'} hk' => by
    by_cases hkk : k' = k
    · subst hkk
      rw [AList.lookup_insert, Option.some.injEq, Prod.mk.injEq] at hk'
      rw [← hk'.2]
      exact List.mem_cons_self
    · rw [AList.lookup_insert_ne hkk] at hk'
      exact List.mem_cons_of_mem _ (h.iter hk')
  fresh := by
    intro n hn
    rcases List.mem_cons.1 hn with rfl | hn
    · exact Nat.lt_succ_self _
    · exact Nat.lt_succ_of_lt (h.fresh n hn)
  size := hroom

/-- After `store` the key is in front, with the value, and the containers agree. The other keys
have kept their entries. -/
theorem store_spec (h : c.Inv) {k : Bytes}
    (hroom : k ∈ c.keyValue ∨ c.keyUsage.length < c.capacity) (value : ν) :
    ∃ usage it fresh, c.store k value = some (decide (k ∈ c.keyValue), { c with
        keyUsage := usage
        keyValue := c.keyValue.insert k (value, it)
        fresh := fresh }) ∧
      usage.map Node.key = k :: (c.keyUsage.map Node.key).filter (fun k' => k' ≠ k) ∧
      ({ c with
        keyUsage := usage
        keyValue := c.keyValue.insert k (value, it)
        fresh := fresh } : CapacityCache κ ν).Inv := by
  cases hk : c.keyValue.lookup k with
  | some p =>
    -- the iterator that is written back is the one that was found
    obtain ⟨v, it⟩ := p
    have hmem : k ∈ c.keyValue := AList.lookup_isSome.1 (by simp [hk])
    have hn := h.iter hk
    refine ⟨_, it, c.fresh, by rw [store_present h hk, decide_eq_true hmem], ?_,
      (h.moveFront hn).rewrite List.mem_cons_self value⟩
    rw [List.map_cons, map_key_erase h.keys hn]
  | none =>
    have hnot : k ∉ c.keyValue := AList.lookup_eq_none.1 hk
    refine ⟨_, c.fresh, c.fresh + 1, by rw [store_absent hk, decide_eq_false hnot], ?_,
      h.push hnot (hroom.resolve_left hnot) value⟩
    rw [List.map_cons, List.filter_eq_self.2 fun k' hk' => by
      simp only [decide_eq_true_eq]
      rintro rfl
      exact hnot ((h.mem _).2 hk')]

/-! ### The whole of `update` -/

/-- The cache in which `update` stores: evicted first when it was full. -/
def beforeStore (c : CapacityCache κ ν) : Option (CapacityCache κ ν) :=
  if c.keyValue.keys.length = c.capacity then c.evict else some c

theorem update_eq (hcap : c.capacity ≠ 0) (key : κ) (value : ν) :
    c.update key value = c.beforeStore.bind fun c => c.store (c.keyHasher key) value := by
  unfold update beforeStore
  rw [if_neg hcap]
  split_ifs
  · cases c.evict <;> rfl
  · rfl

theorem beforeStore_full (h : c.Inv) (hcap : c.capacity ≠ 0)
    (hfull : c.keyUsage.length = c.capacity) :
    ∃ init last, c.keyUsage = init ++ [last] ∧
      c.beforeStore = some { c with keyUsage := init, keyValue := c.keyValue.erase last.key } ∧
      ({ c with keyUsage := init, keyValue := c.keyValue.erase last.key } :
        CapacityCache κ ν).Inv := by
  have hne : c.keyUsage ≠ [] := by
    intro hnil
    rw [hnil] at hfull
    exact hcap hfull.symm
  obtain ⟨init, last, hsplit, hevict, hinv⟩ := evict_spec h hne
  exact ⟨init, last, hsplit, by rw [beforeStore, if_pos (h.length_eq.trans hfull), hevict], hinv⟩

theorem beforeStore_room (h : c.Inv) (hroom : c.keyUsage.length ≠ c.capacity) :
    c.beforeStore = some c := by
  rw [beforeStore, if_neg (by rwa [h.length_eq])]

/-- `update` on a cache with room for a key: never undefined, the key has its new value, and every
entry of another key that is there afterwards was there before. -/
theorem update_spec (h : c.Inv) (hcap : c.capacity ≠ 0) (key : κ) (value : ν) :
    ∃ b c', c.update key value = some (b, c') ∧ c'.Inv ∧ c'.capacity = c.capacity ∧
      c'.keyHasher = c.keyHasher ∧
      (∃ it, c'.keyValue.lookup (c.keyHasher key) = some (value, it)) ∧
      ∀ k ≠ c.keyHasher key, ∀ v ∈ c'.keyValue.lookup k, v ∈ c.keyValue.lookup k := by
  rw [update_eq hcap]
  by_cases hfull : c.keyUsage.length = c.capacity
  · obtain ⟨init, last, hsplit, hbefore, hinv⟩ := beforeStore_full h hcap hfull
    have hroom : init.length < c.capacity := by
      rw [hsplit, List.length_append, List.length_singleton] at hfull
      omega
    obtain ⟨usage, it, fresh, hstore, -, hinv'⟩ :=
      store_spec hinv (k := c.keyHasher key) (Or.inr hroom) value
    refine ⟨_, _, by rw [hbefore, Option.bind_some, hstore], hinv', rfl, rfl,
      ⟨it, AList.lookup_insert _⟩, fun k hk v hv => ?_⟩
    rw [AList.lookup_insert_ne hk] at hv
    by_cases hlast : k = last.key
    · subst hlast; simp at hv
    · rwa [AList.lookup_erase_ne hlast] at hv
  · have hroom : c.keyUsage.length < c.capacity := lt_of_le_of_ne h.size hfull
    obtain ⟨usage, it, fresh, hstore, -, hinv'⟩ :=
      store_spec h (k := c.keyHasher key) (Or.inr hroom) value
    refine ⟨_, _, by rw [beforeStore_room h hfull, Option.bind_some, hstore], hinv', rfl, rfl,
      ⟨it, AList.lookup_insert _⟩, fun k hk v hv => ?_⟩
    rwa [AList.lookup_insert_ne hk] at hv

end CapacityCache

end AskUser.Plugin
