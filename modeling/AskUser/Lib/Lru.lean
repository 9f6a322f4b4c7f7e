import Mathlib.Data.List.AList
import Mathlib.Data.Finset.Card
import Mathlib.Tactic

/-!
# Least-recently-used maps

The reference behaviour of a cache with a capacity: a list of pairs with distinct keys, most
recently used first. Mathlib's `AList` is such a list, and its `insert` moves the key to the front
with a new value, which is what a use of a key does.

* `get`, `update`, `step` and `run` are the operations, with the capacity `n` as a parameter;
* `run_survives` says when a key stays: it was used, and fewer than `n` distinct other keys have
  been used since.
-/

namespace Lru

variable {κ ν : Type} [DecidableEq κ]

/-- A recency-ordered list of pairs with distinct keys. -/
abbrev LruMap (κ ν : Type) := AList (fun _ : κ => ν)

/-- Drop the least recently used pair. -/
def dropLast (l : LruMap κ ν) : LruMap κ ν :=
  ⟨l.entries.dropLast, l.nodupKeys.sublist (List.dropLast_sublist _)⟩

/-- A hit moves its key to the front, a miss changes nothing. -/
def get (l : LruMap κ ν) (k : κ) : Option ν × LruMap κ ν :=
  match l.lookup k with
  | none => (none, l)
  | some v => (some v, l.insert k v)

/-- Updating a present key replaces its value and moves it to the front; an absent key goes to the
front, and only if there are then more than `n` pairs the last one is dropped. -/
def update (n : ℕ) (l : LruMap κ ν) (k : κ) (v : ν) : Bool × LruMap κ ν :=
  if k ∈ l then (true, l.insert k v)
  else
    let l' := l.insert k v
    (false, if n < l'.entries.length then dropLast l' else l')

/-- The calls on a cache. -/
inductive Op (κ ν : Type)
  | get (k : κ)
  | update (k : κ) (v : ν)
  | clear
  deriving DecidableEq

/-- The results of the calls: a hit or a miss, whether the key was there, nothing. -/
inductive Out (ν : Type)
  | value (v : Option ν)
  | existed (b : Bool)
  | cleared
  deriving DecidableEq

/-- One call. -/
def step (n : ℕ) (l : LruMap κ ν) : Op κ ν → Out ν × LruMap κ ν
  | .get k => (.value (get l k).1, (get l k).2)
  | .update k v => (.existed (update n l k v).1, (update n l k v).2)
  | .clear => (.cleared, ∅)

/-- A sequence of calls, with their results in order. -/
def run (n : ℕ) (l : LruMap κ ν) : List (Op κ ν) → List (Out ν) × LruMap κ ν
  | [] => ([], l)
  | op :: ops => ((step n l op).1 :: (run n (step n l op).2 ops).1, (run n (step n l op).2 ops).2)

theorem run_append (n : ℕ) (l : LruMap κ ν) (ops ops' : List (Op κ ν)) :
    run n l (ops ++ ops') =
      ((run n l ops).1 ++ (run n (run n l ops).2 ops').1, (run n (run n l ops).2 ops').2) := by
  induction ops generalizing l with
  | nil => rfl
  | cons op ops ih => simp [run, ih]

/-! ### Keys -/

omit [DecidableEq κ] in
theorem keys_dropLast (l : LruMap κ ν) : (dropLast l).keys = l.keys.dropLast := by
  simp [dropLast, AList.keys, List.keys, List.map_dropLast]

/-- The pairs that stay keep their values. -/
theorem lookup_dropLast {l : LruMap κ ν} {k : κ} (hk : k ∈ dropLast l) :
    (dropLast l).lookup k = l.lookup k := by
  obtain ⟨v, hv⟩ := Option.isSome_iff_exists.1 (AList.lookup_isSome.2 hk)
  have hmem : (⟨k, v⟩ : Sigma fun _ : κ => ν) ∈ (dropLast l).entries := AList.mem_lookup_iff.1 hv
  exact hv.trans (AList.mem_lookup_iff.2 (List.mem_of_mem_dropLast hmem)).symm

omit [DecidableEq κ] in
theorem length_keys (l : LruMap κ ν) : l.keys.length = l.entries.length := by
  simp [AList.keys, List.keys]

/-- Inserting an absent key and then dropping the last pair is dropping the last pair first. -/
theorem dropLast_insert {l : LruMap κ ν} {k : κ} (hk : k ∉ l) (hne : l.entries ≠ []) (v : ν) :
    dropLast (l.insert k v) = (dropLast l).insert k v := by
  have hk' : k ∉ dropLast l := by
    rw [AList.mem_keys, keys_dropLast]
    exact fun h => hk (AList.mem_keys.2 (List.mem_of_mem_dropLast h))
  apply AList.ext
  rw [AList.entries_insert_of_notMem hk']
  simp only [dropLast, AList.entries_insert_of_notMem hk]
  exact List.dropLast_cons_of_ne_nil hne

/-- An update of an absent key, by the number of keys before it. -/
theorem update_of_notMem {n : ℕ} {l : LruMap κ ν} {k : κ} (hk : k ∉ l) (v : ν) :
    (update n l k v).2 =
      if n < l.keys.length + 1 then dropLast (l.insert k v) else l.insert k v := by
  have hlen : (l.insert k v).entries.length = l.keys.length + 1 := by
    rw [AList.entries_insert_of_notMem hk, List.length_cons, length_keys]
  simp only [update, if_neg hk, hlen]

/-- What a use of a key does to the keys: it comes to the front, and at most the last key goes. -/
theorem update_keys (n : ℕ) (l : LruMap κ ν) (k : κ) (v : ν) :
    (update n l k v).2.keys = k :: l.keys.erase k ∨
      k ∉ l ∧ n ≤ l.keys.length ∧ (update n l k v).2.keys = (k :: l.keys).dropLast := by
  by_cases hk : k ∈ l
  · left
    simp [update, hk, AList.keys_insert]
  · have herase : l.keys.erase k = l.keys :=
      List.erase_of_not_mem fun h => hk (AList.mem_keys.2 h)
    rw [update_of_notMem hk]
    split_ifs with hn
    · right
      exact ⟨hk, by omega, by rw [keys_dropLast, AList.keys_insert, herase]⟩
    · left
      rw [AList.keys_insert]

/-- Updating a present key drops no other key. -/
theorem mem_update_of_mem {n : ℕ} {l : LruMap κ ν} {k k' : κ} (hk : k ∈ l) (hk' : k' ∈ l) (v : ν) :
    k' ∈ (update n l k v).2 := by
  simp only [update, if_pos hk]
  exact (AList.mem_insert l).2 (Or.inr hk')

/-! ### Survival -/

/-- The key that a call with this result has used: an updated key, or a key read successfully. -/
def usedBy : Op κ ν → Out ν → Option κ
  | .get k, .value (some _) => some k
  | .update k _, _ => some k
  | _, _ => none

/-- The keys used by a sequence of calls with these results. -/
def usedKeys : List (Op κ ν) → List (Out ν) → List κ
  | op :: ops, out :: outs => (usedBy op out).toList ++ usedKeys ops outs
  | _, _ => []

/-- What one call does to the keys, `clear` apart. -/
theorem step_keys (n : ℕ) (l : LruMap κ ν) {op : Op κ ν} (hop : op ≠ .clear) :
    (usedBy op (step n l op).1 = none ∧ (step n l op).2.keys = l.keys) ∨
      ∃ k, usedBy op (step n l op).1 = some k ∧ ((step n l op).2.keys = k :: l.keys.erase k ∨
        k ∉ l ∧ n ≤ l.keys.length ∧ (step n l op).2.keys = (k :: l.keys).dropLast) := by
  cases op with
  | get k =>
    cases hk : l.lookup k with
    | none => exact Or.inl ⟨by simp [step, get, hk, usedBy], by simp [step, get, hk]⟩
    | some v => exact Or.inr ⟨k, by simp [step, get, hk, usedBy],
        Or.inl (by simp [step, get, hk, AList.keys_insert])⟩
  | update k v => exact Or.inr ⟨k, rfl, update_keys n l k v⟩
  | clear => exact absurd rfl hop

/-- Distinct members of a set, and one more. -/
theorem length_succ_le_card {x : κ} {pre : List κ} {T : Finset κ} (hnodup : pre.Nodup)
    (hx : x ∉ pre) (hpre : ∀ y ∈ pre, y ∈ T) (hxT : x ∈ T) : pre.length + 1 ≤ T.card := by
  have hsub : (x :: pre).toFinset ⊆ T := by
    intro y hy
    simp only [List.toFinset_cons, Finset.mem_insert, List.mem_toFinset] at hy
    rcases hy with rfl | hy
    · exact hxT
    · exact hpre y hy
  calc pre.length + 1 = (x :: pre).toFinset.card := by
        rw [List.toFinset_card_of_nodup (List.nodup_cons.2 ⟨hx, hnodup⟩), List.length_cons]
    _ ≤ T.card := Finset.card_le_card hsub

/-- The keys in front of `k` are keys used since `k` was: `pre` are the keys in front. -/
theorem run_keeps {n : ℕ} {k : κ} {T : Finset κ} (hT : T.card < n) (ops : List (Op κ ν))
    (hclear : .clear ∉ ops) {l : LruMap κ ν} (pre suf : List κ) (hl : l.keys = pre ++ k :: suf)
    (hpre : ∀ x ∈ pre, x ∈ T) (hused : ∀ x ∈ usedKeys ops (run n l ops).1, x = k ∨ x ∈ T) :
    k ∈ (run n l ops).2 := by
  induction ops generalizing l pre suf with
  | nil =>
    rw [run, AList.mem_keys, hl]
    simp
  | cons op ops ih =>
    have hop : op ≠ .clear := by rintro rfl; exact hclear (by simp)
    have hnodup : (pre ++ k :: suf).Nodup := hl ▸ l.keys_nodup
    have hkpre : k ∉ pre := fun h =>
      (List.nodup_append.1 hnodup).2.2 k h k (by simp) rfl
    simp only [run, usedKeys, List.mem_append] at hused
    have next := fun pre suf (h : (step n l op).2.keys = pre ++ k :: suf) hp =>
      ih (fun h => hclear (by simp [h])) pre suf h hp (fun x hx => hused x (Or.inr hx))
    rcases step_keys n l hop with ⟨-, hkeys⟩ | ⟨x, hx, hkeys⟩
    · exact next pre suf (hkeys.trans hl) hpre
    · have hxT : x = k ∨ x ∈ T := hused x (Or.inl (by simp [hx]))
      by_cases hxk : x = k
      · subst hxk
        have herase : l.keys.erase x = pre ++ suf := by
          rw [hl, List.erase_append_right _ hkpre, List.erase_cons_head]
        rcases hkeys with hkeys | ⟨hnot, -, -⟩
        · exact next [] (pre ++ suf) (hkeys.trans (by rw [herase]; rfl)) (by simp)
        · exact absurd (AList.mem_keys.2 (by rw [hl]; simp)) hnot
      · have hxT' : x ∈ T := hxT.resolve_left hxk
        rcases hkeys with hkeys | ⟨hnot, hn, hkeys⟩
        · -- `x` comes to the front, from before `k`, from behind it, or from outside
          by_cases hxpre : x ∈ pre
          · refine next (x :: pre.erase x) suf ?_ ?_
            · rw [hkeys, hl, List.erase_append_left _ hxpre]
              rfl
            · simp only [List.mem_cons, forall_eq_or_imp]
              exact ⟨hxT', fun y hy => hpre y (List.mem_of_mem_erase hy)⟩
          · refine next (x :: pre) (suf.erase x) ?_ ?_
            · rw [hkeys, hl, List.erase_append_right _ hxpre,
                List.erase_cons_tail (by simpa using Ne.symm hxk)]
              rfl
            · simp only [List.mem_cons, forall_eq_or_imp]
              exact ⟨hxT', hpre⟩
        · -- the last key is dropped; if that were `k`, `n` keys of `T` would stand before it
          have hxl : x ∉ pre := fun h => hnot (AList.mem_keys.2 (by rw [hl]; simp [h]))
          have hsuf : suf ≠ [] := by
            rintro rfl
            have hpreT : pre.length + 1 ≤ T.card :=
              length_succ_le_card (List.nodup_append.1 hnodup).1 hxl hpre hxT'
            rw [hl, List.length_append, List.length_singleton] at hn
            omega
          refine next (x :: pre) suf.dropLast ?_ ?_
          · rw [hkeys, hl, ← List.cons_append, List.dropLast_append_of_ne_nil (by simp),
              List.dropLast_cons_of_ne_nil hsuf]
          · simp only [List.mem_cons, forall_eq_or_imp]
            exact ⟨hxT', hpre⟩

/-- A call that uses a key leaves it in front, if the map has room for a key at all. -/
theorem step_head {n : ℕ} (hn : n ≠ 0) {l : LruMap κ ν} {op : Op κ ν} {k : κ}
    (h : usedBy op (step n l op).1 = some k) : (step n l op).2.keys.head? = some k := by
  have hop : op ≠ .clear := by rintro rfl; simp [usedBy] at h
  rcases step_keys n l hop with ⟨hnone, -⟩ | ⟨k', hk', hkeys⟩
  · rw [hnone] at h
    exact absurd h (by simp)
  · rw [hk', Option.some.injEq] at h
    subst h
    rcases hkeys with hkeys | ⟨-, hle, hkeys⟩
    · rw [hkeys, List.head?_cons]
    · have hne : l.keys ≠ [] := by
        rintro hnil
        rw [hnil] at hle
        exact hn (Nat.le_zero.1 hle)
      rw [hkeys, List.dropLast_cons_of_ne_nil hne, List.head?_cons]

/-- **Survival.** A key that was used last is still there after calls that use fewer than `n`
distinct other keys. -/
theorem run_survives {n : ℕ} {l : LruMap κ ν} {k : κ} (hl : l.keys.head? = some k)
    {ops : List (Op κ ν)} (hclear : .clear ∉ ops)
    (hn : ((usedKeys ops (run n l ops).1).toFinset.erase k).card < n) : k ∈ (run n l ops).2 := by
  obtain ⟨suf, hsuf⟩ := List.head?_eq_some_iff.1 hl
  refine run_keeps hn ops hclear [] suf hsuf (by simp) fun x hx => ?_
  by_cases hxk : x = k
  · exact Or.inl hxk
  · exact Or.inr (Finset.mem_erase.2 ⟨hxk, List.mem_toFinset.2 hx⟩)

end Lru
