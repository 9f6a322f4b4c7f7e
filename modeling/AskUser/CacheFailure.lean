import AskUser.CacheInvariant
import AskUser.Lib.Fallible

/-!
# The cache when an operation throws

`get` and `update` again, statement by statement, for runs in which one operation throws: what it
has left behind stays. A run that throws nowhere is one of `CapacityCache.get` and
`CapacityCache.update`, but for the number of identities that were given out.

* `updateM_returns`, `updateM_throws`: which operations an update performs, and which of them
  leave the containers in agreement when they throw;
* the agreement is lost exactly where the key is new and the statement that writes its map entry
  does not come to its end (`Orphans`): the list has the key then, and the map has no entry for it,
  or one with an iterator that points nowhere.

`rightFirst` says which operand of that statement is evaluated first, which C++11 leaves open, and
`dflt` is the value that `operator[]` inserts.
-/

namespace AskUser.Plugin
open ByteText Fallible

/-- The operations of the cache that can throw: they copy a string or a value, or allocate a
node. -/
inductive ThrowPoint
  /-- `m_keyHasher(key)` -/
  | hash
  /-- `value = resultIt->second.first`, in `get` -/
  | copyOut
  /-- `auto lastUsedKey = m_keyUsage.back()` -/
  | copyLastKey
  /-- `m_keyUsage.push_front(cacheKey)` -/
  | listNode
  /-- `std::make_pair(value, m_keyUsage.begin())` -/
  | makePair
  /-- the node that `m_keyValue[cacheKey]` inserts -/
  | mapNode
  /-- the assignment to `m_keyValue[cacheKey]` -/
  | assign
  deriving DecidableEq

/-- How a call can end otherwise than by returning. -/
inductive CacheAbort
  | exception
  /-- undefined behaviour -/
  | undefined
  deriving DecidableEq

/-- A run on a cache. -/
abbrev CacheM (κ ν : Type) := EStateM CacheAbort (CapacityCache κ ν)

namespace CacheM

variable {κ ν : Type}

variable (rightFirst : Bool) (dflt : ν) (throwAt : Option ThrowPoint)

def spliceM (it : ℕ) : CacheM κ ν Unit := fun c =>
  match splice c.keyUsage it with
  | none => .error .undefined c
  | some keyUsage => .ok () { c with keyUsage := keyUsage }

def getM (key : κ) : CacheM κ ν (Option ν) := do
  failAt throwAt .hash .exception
  let c ← get
  match c.keyValue.lookup (c.keyHasher key) with
  | none => return none
  | some (value, usageIt) =>
    spliceM usageIt
    failAt throwAt .copyOut .exception
    return some value

def evictM : CacheM κ ν Unit := do
  match (← get).keyUsage.getLast? with
  | none => throw .undefined
  | some lastUsed =>
    failAt throwAt .copyLastKey .exception
    modify fun c => { c with keyUsage := c.keyUsage.dropLast }
    if lastUsed.key ∈ (← get).keyValue then
      modify fun c => { c with keyValue := c.keyValue.erase lastUsed.key }
    else throw .undefined

/-- `m_keyValue[cacheKey]`. Where it inserts an entry, the iterator in it is singular: it has the
identity of no node. -/
def subscript (cacheKey : Bytes) : CacheM κ ν Unit := do
  if cacheKey ∈ (← get).keyValue then return
  else
    failAt throwAt .mapNode .exception
    modify fun c => { c with
      keyValue := c.keyValue.insert cacheKey (dflt, c.fresh), fresh := c.fresh + 1 }

/-- The operands `m_keyValue[cacheKey]` and `std::make_pair(value, m_keyUsage.begin())`. -/
def operands (cacheKey : Bytes) : CacheM κ ν Unit :=
  if rightFirst then do
    failAt throwAt .makePair .exception
    subscript dflt throwAt cacheKey
  else do
    subscript dflt throwAt cacheKey
    failAt throwAt .makePair .exception

/-- `m_keyValue[cacheKey] = std::make_pair(value, m_keyUsage.begin())`. -/
def assignEntry (cacheKey : Bytes) (value : ν) : CacheM κ ν Unit := do
  operands rightFirst dflt throwAt cacheKey
  failAt throwAt .assign .exception
  match (← get).keyUsage with
  | [] => throw .undefined
  | front :: _ => modify fun c => { c with
      keyValue := c.keyValue.insert cacheKey (value, front.it) }

/-- The first lines of `update`, up to the eviction. -/
def makeRoom : CacheM κ ν Unit := do
  let c ← get
  if c.keyValue.keys.length = c.capacity then evictM throwAt else return

/-- The part of `update` after the hash was made. -/
def storeM (cacheKey : Bytes) (value : ν) : CacheM κ ν Bool := do
  match (← get).keyValue.lookup cacheKey with
  | some (_, usageIt) =>
    spliceM usageIt
    assignEntry rightFirst dflt throwAt cacheKey value
    return true
  | none =>
    failAt throwAt .listNode .exception
    modify fun c => { c with
      keyUsage := ⟨c.fresh, cacheKey⟩ :: c.keyUsage, fresh := c.fresh + 1 }
    assignEntry rightFirst dflt throwAt cacheKey value
    return false

def updateM (key : κ) (value : ν) : CacheM κ ν Bool := do
  if (← get).capacity = 0 then return false
  else
    makeRoom throwAt
    failAt throwAt .hash .exception
    storeM rightFirst dflt throwAt ((← get).keyHasher key) value

end CacheM

namespace CapacityCache

variable {κ ν : Type}

/-! ### Which operations an update performs -/

/-- The key has no entry when `update` looks it up: it had none, or it was the one to be evicted. -/
def IsNew (c : CapacityCache κ ν) (key : κ) : Prop :=
  c.keyHasher key ∉ c.keyValue ∨
    c.keyValue.keys.length = c.capacity ∧
      c.keyUsage.getLast?.map Node.key = some (c.keyHasher key)

/-- `update` performs the operation. -/
def Performs (c : CapacityCache κ ν) (key : κ) : ThrowPoint → Prop
  | .hash | .makePair | .assign => True
  | .copyLastKey => c.keyValue.keys.length = c.capacity
  | .listNode | .mapNode => c.IsNew key
  | .copyOut => False

/-- The operations of the statement that writes the map entry, where there is no entry yet. -/
def Orphans (c : CapacityCache κ ν) (key : κ) (p : ThrowPoint) : Prop :=
  c.IsNew key ∧ p ∈ [ThrowPoint.makePair, .mapNode, .assign]

variable {c : CapacityCache κ ν} {key : κ}

/-- The same, asked of the cache that the eviction leaves. -/
theorem isNew_iff (h : c.Inv) (hcap : c.capacity ≠ 0) {c₁ : CapacityCache κ ν}
    (hbefore : c.beforeStore = some c₁) : c.IsNew key ↔ c.keyHasher key ∉ c₁.keyValue := by
  unfold IsNew
  rw [h.length_eq]
  by_cases hfull : c.keyUsage.length = c.capacity
  · obtain ⟨init, last, hsplit, hbefore', -⟩ := beforeStore_full h hcap hfull
    obtain rfl := Option.some.inj (hbefore'.symm.trans hbefore)
    have hlast : c.keyUsage.getLast? = some last := by simp [hsplit]
    simp only [hfull, hlast, Option.map_some, Option.some.injEq, true_and, AList.mem_erase,
      not_and_or, not_not]
    rw [or_comm, eq_comm]
  · obtain rfl := Option.some.inj ((beforeStore_room h hfull).symm.trans hbefore)
    simp only [hfull, false_and, or_false]

/-- A key of the list without a map entry. -/
theorem not_inv_of_orphan {n : Node} (hn : n ∈ c.keyUsage) (hk : n.key ∉ c.keyValue) : ¬ c.Inv :=
  fun h => hk ((h.mem _).2 (List.mem_map_of_mem hn))

/-- A map entry with an iterator that points to no node. -/
theorem not_inv_of_dangling {k : Bytes} {v : ν} {it : ℕ} (hk : c.keyValue.lookup k = some (v, it))
    (hit : ∀ n ∈ c.keyUsage, n.it ≠ it) : ¬ c.Inv :=
  fun h => hit _ (h.iter hk) rfl

end CapacityCache

namespace CacheM

variable {κ ν : Type} (rightFirst : Bool) (dflt : ν) {throwAt : Option ThrowPoint}
  {c : CapacityCache κ ν} {k : Bytes} (value : ν)

/-! ### The statements -/

theorem spliceM_run {n : Node} (hl : (c.keyUsage.map Node.it).Nodup) (hn : n ∈ c.keyUsage) :
    spliceM n.it c = .ok () { c with keyUsage := n :: c.keyUsage.erase n } := by
  simp only [spliceM, CapacityCache.splice_eq hl hn]

theorem subscript_present (hk : k ∈ c.keyValue) : subscript dflt throwAt k c = .ok () c := by
  unfold subscript
  rw [get_bind, if_pos hk]
  rfl

theorem subscript_throws (hk : k ∉ c.keyValue) (ht : throwAt = some .mapNode) :
    subscript dflt throwAt k c = .error .exception c := by
  unfold subscript
  rw [get_bind, if_neg hk, failAt_throw ht]

theorem subscript_inserts (hk : k ∉ c.keyValue) (ht : throwAt ≠ some .mapNode) :
    subscript dflt throwAt k c = .ok () { c with
      keyValue := c.keyValue.insert k (dflt, c.fresh), fresh := c.fresh + 1 } := by
  unfold subscript
  rw [get_bind, if_neg hk, failAt_pass ht]
  rfl

theorem operands_present (hk : k ∈ c.keyValue) :
    operands rightFirst dflt throwAt k c =
      if throwAt = some .makePair then .error .exception c else .ok () c := by
  unfold operands
  split_ifs with hright ht ht
  · rw [failAt_throw ht]
  · rw [failAt_pass ht, subscript_present dflt hk]
  · rw [bind_ok (subscript_present dflt hk)]
    exact if_pos ht
  · rw [bind_ok (subscript_present dflt hk)]
    exact if_neg ht

/-- The list of `c` is left, and no good map entry for the key. -/
def LeftBehind (c : CapacityCache κ ν) (k : Bytes) (c' : CapacityCache κ ν) : Prop :=
  c'.keyUsage = c.keyUsage ∧ c'.capacity = c.capacity ∧ c'.keyHasher = c.keyHasher ∧
    (k ∉ c'.keyValue ∨ ∃ v, c'.keyValue.lookup k = some (v, c.fresh))

theorem LeftBehind.not_inv {c' : CapacityCache κ ν} (h : LeftBehind c k c') {n : Node}
    (hn : n ∈ c.keyUsage) (hk : n.key = k) (hfresh : ∀ n ∈ c.keyUsage, n.it < c.fresh) :
    ¬ c'.Inv := by
  obtain ⟨husage, -, -, hno | ⟨v, hv⟩⟩ := h
  · exact CapacityCache.not_inv_of_orphan (husage ▸ hn) (hk ▸ hno)
  · refine CapacityCache.not_inv_of_dangling hv fun m hm => ?_
    exact Nat.ne_of_lt (hfresh m (husage ▸ hm))

theorem leftBehind_self (hk : k ∉ c.keyValue) : LeftBehind c k c := ⟨rfl, rfl, rfl, Or.inl hk⟩

theorem leftBehind_default : LeftBehind c k { c with
    keyValue := c.keyValue.insert k (dflt, c.fresh), fresh := c.fresh + 1 } :=
  ⟨rfl, rfl, rfl, Or.inr ⟨dflt, AList.lookup_insert _⟩⟩

theorem operands_throws (hk : k ∉ c.keyValue)
    (ht : throwAt = some .makePair ∨ throwAt = some .mapNode) :
    ∃ c', operands rightFirst dflt throwAt k c = .error .exception c' ∧ LeftBehind c k c' := by
  unfold operands
  rcases ht with ht | ht
  · have hmap : throwAt ≠ some .mapNode := by simp [ht]
    cases rightFirst with
    | true => exact ⟨c, failAt_throw ht, leftBehind_self hk⟩
    | false =>
      refine ⟨_, ?_, leftBehind_default dflt⟩
      rw [if_neg Bool.false_ne_true, bind_ok (subscript_inserts dflt hk hmap)]
      exact if_pos ht
  · have hpair : throwAt ≠ some .makePair := by simp [ht]
    refine ⟨c, ?_, leftBehind_self hk⟩
    cases rightFirst with
    | true => exact (failAt_pass hpair).trans (subscript_throws dflt hk ht)
    | false => exact bind_error (subscript_throws dflt hk ht)

theorem operands_inserts (hk : k ∉ c.keyValue) (hpair : throwAt ≠ some .makePair)
    (hmap : throwAt ≠ some .mapNode) : operands rightFirst dflt throwAt k c = .ok () { c with
      keyValue := c.keyValue.insert k (dflt, c.fresh), fresh := c.fresh + 1 } := by
  unfold operands
  cases rightFirst with
  | true => exact (failAt_pass hpair).trans (subscript_inserts dflt hk hmap)
  | false =>
    rw [if_neg Bool.false_ne_true, bind_ok (subscript_inserts dflt hk hmap)]
    exact if_neg hpair

/-! ### The statement that writes the map entry -/

/-- For a key that has an entry: what throws changes nothing. -/
theorem assignEntry_present_throws (hk : k ∈ c.keyValue)
    (ht : throwAt = some .makePair ∨ throwAt = some .assign) :
    assignEntry rightFirst dflt throwAt k value c = .error .exception c := by
  unfold assignEntry
  rcases ht with ht | ht
  · exact bind_error (by rw [operands_present _ _ hk, if_pos ht])
  · rw [bind_ok (by rw [operands_present _ _ hk, if_neg (by simp [ht])]), failAt_throw ht]

/-- For a key that has an entry and is in front of the list, where nothing throws. -/
theorem assignEntry_present {n : Node} {l : List Node} (hk : k ∈ c.keyValue)
    (hfront : c.keyUsage = n :: l) (hpair : throwAt ≠ some .makePair)
    (hassign : throwAt ≠ some .assign) :
    assignEntry rightFirst dflt throwAt k value c =
      .ok () { c with keyValue := c.keyValue.insert k (value, n.it) } := by
  obtain ⟨capacity, keyHasher, usage, keyValue, fresh⟩ := c
  obtain rfl : usage = n :: l := hfront
  unfold assignEntry
  rw [bind_ok (by rw [operands_present _ _ hk, if_neg hpair]), failAt_pass hassign, get_bind]
  rfl

/-- For a new key: what throws leaves no good entry behind. -/
theorem assignEntry_throws (hk : k ∉ c.keyValue)
    (ht : throwAt = some .makePair ∨ throwAt = some .mapNode ∨ throwAt = some .assign) :
    ∃ c', assignEntry rightFirst dflt throwAt k value c = .error .exception c' ∧
      LeftBehind c k c' := by
  unfold assignEntry
  rw [← or_assoc] at ht
  rcases ht with ht | ht
  · obtain ⟨c', hc', hleft⟩ := operands_throws rightFirst dflt hk ht
    exact ⟨c', bind_error hc', hleft⟩
  · have hinserts := operands_inserts rightFirst dflt hk
      (by simp [ht] : throwAt ≠ some .makePair) (by simp [ht])
    exact ⟨_, by rw [bind_ok hinserts, failAt_throw ht], leftBehind_default dflt⟩

/-- For a new key that is in front of the list, where nothing throws. -/
theorem assignEntry_new {n : Node} {l : List Node} (hk : k ∉ c.keyValue)
    (hfront : c.keyUsage = n :: l) (hpair : throwAt ≠ some .makePair)
    (hmap : throwAt ≠ some .mapNode) (hassign : throwAt ≠ some .assign) :
    assignEntry rightFirst dflt throwAt k value c = .ok () { c with
      keyValue := c.keyValue.insert k (value, n.it), fresh := c.fresh + 1 } := by
  obtain ⟨capacity, keyHasher, usage, keyValue, fresh⟩ := c
  obtain rfl : usage = n :: l := hfront
  have hinsert : (keyValue.insert k (dflt, fresh)).insert k (value, n.it) =
      keyValue.insert k (value, n.it) := AList.insert_insert _
  unfold assignEntry
  rw [bind_ok (operands_inserts rightFirst dflt hk hpair hmap), failAt_pass hassign, get_bind,
    ← hinsert]
  rfl

/-! ### The parts of `update` -/

theorem makeRoom_throws (h : c.Inv) (hcap : c.capacity ≠ 0)
    (hfull : c.keyValue.keys.length = c.capacity) (ht : throwAt = some .copyLastKey) :
    makeRoom throwAt c = .error .exception c := by
  obtain ⟨init, last, hsplit, -⟩ := CapacityCache.beforeStore_full h hcap
    (h.length_eq.symm.trans hfull)
  have hlast : c.keyUsage.getLast? = some last := by simp [hsplit]
  unfold makeRoom evictM
  rw [get_bind, if_pos hfull, get_bind, hlast]
  exact failAt_throw ht

/-- Without an exception the eviction is that of `evict`. -/
theorem makeRoom_returns (h : c.Inv) (hcap : c.capacity ≠ 0)
    (ht : throwAt = some .copyLastKey → c.keyValue.keys.length ≠ c.capacity)
    {c₁ : CapacityCache κ ν} (hbefore : c.beforeStore = some c₁) :
    makeRoom throwAt c = .ok () c₁ := by
  unfold makeRoom
  rw [get_bind]
  by_cases hfull : c.keyValue.keys.length = c.capacity
  · obtain ⟨init, last, hsplit, hbefore', -⟩ := CapacityCache.beforeStore_full h hcap
      (h.length_eq.symm.trans hfull)
    obtain rfl := Option.some.inj (hbefore'.symm.trans hbefore)
    have hlast : c.keyUsage.getLast? = some last := by simp [hsplit]
    have hdrop : c.keyUsage.dropLast = init := by simp [hsplit]
    have hmem : last.key ∈ c.keyValue := (h.mem _).2 (by simp [hsplit])
    unfold evictM
    rw [if_pos hfull, get_bind, hlast]
    simp only
    rw [failAt_pass fun hp => ht hp hfull, modify_bind, get_bind]
    simp only [hdrop, if_pos hmem]
    rfl
  · rw [CapacityCache.beforeStore_room h (by rwa [← h.length_eq])] at hbefore
    obtain rfl := Option.some.inj hbefore
    rw [if_neg hfull]
    rfl

/-- A key that has an entry: whatever throws, the containers agree. -/
theorem storeM_present_throws (h : c.Inv) (hk : k ∈ c.keyValue)
    (ht : throwAt = some .makePair ∨ throwAt = some .assign) :
    ∃ c', storeM rightFirst dflt throwAt k value c = .error .exception c' ∧
      c'.capacity = c.capacity ∧ c'.keyHasher = c.keyHasher ∧ c'.Inv := by
  obtain ⟨⟨v, it⟩, hlookup⟩ := Option.isSome_iff_exists.1 (AList.lookup_isSome.2 hk)
  have hn := h.iter hlookup
  let moved : CapacityCache κ ν := { c with keyUsage := ⟨it, k⟩ :: c.keyUsage.erase ⟨it, k⟩ }
  have hassign := assignEntry_present_throws rightFirst dflt value (c := moved) hk ht
  refine ⟨moved, ?_, rfl, rfl, h.moveFront hn⟩
  unfold storeM
  rw [get_bind, hlookup]
  simp only
  rw [bind_ok (spliceM_run h.nodes hn)]
  exact bind_error hassign

/-- A key that has an entry, where nothing throws: `store`. -/
theorem storeM_present (h : c.Inv) (hk : k ∈ c.keyValue) (hpair : throwAt ≠ some .makePair)
    (hassign : throwAt ≠ some .assign) :
    ∃ c', c.store k value = some (true, c') ∧
      storeM rightFirst dflt throwAt k value c = .ok true c' ∧ c'.Inv ∧
      c'.capacity = c.capacity := by
  obtain ⟨⟨v, it⟩, hlookup⟩ := Option.isSome_iff_exists.1 (AList.lookup_isSome.2 hk)
  have hn := h.iter hlookup
  let moved : CapacityCache κ ν := { c with keyUsage := ⟨it, k⟩ :: c.keyUsage.erase ⟨it, k⟩ }
  have hassign := assignEntry_present rightFirst dflt value (c := moved) hk rfl hpair hassign
  refine ⟨_, CapacityCache.store_present h hlookup value, ?_,
    (h.moveFront hn).rewrite List.mem_cons_self value, rfl⟩
  unfold storeM
  rw [get_bind, hlookup]
  simp only
  rw [bind_ok (spliceM_run h.nodes hn)]
  exact bind_ok hassign

theorem storeM_listNode (hk : k ∉ c.keyValue) (ht : throwAt = some .listNode) :
    storeM rightFirst dflt throwAt k value c = .error .exception c := by
  unfold storeM
  rw [get_bind, AList.lookup_eq_none.2 hk]
  exact failAt_throw ht

/-- A new key: what throws after `push_front` leaves containers that disagree. -/
theorem storeM_new_throws (h : c.Inv) (hk : k ∉ c.keyValue)
    (ht : throwAt = some .makePair ∨ throwAt = some .mapNode ∨ throwAt = some .assign) :
    ∃ c', storeM rightFirst dflt throwAt k value c = .error .exception c' ∧
      c'.capacity = c.capacity ∧ c'.keyHasher = c.keyHasher ∧ ¬ c'.Inv := by
  have hlist : throwAt ≠ some .listNode := by rcases ht with rfl | rfl | rfl <;> simp
  have hfresh : ∀ n ∈ (⟨c.fresh, k⟩ :: c.keyUsage : List Node), n.it < c.fresh + 1 := by
    intro n hn
    rcases List.mem_cons.1 hn with rfl | hn
    · exact Nat.lt_succ_self _
    · exact Nat.lt_succ_of_lt (h.fresh n hn)
  let pushed : CapacityCache κ ν :=
    { c with keyUsage := ⟨c.fresh, k⟩ :: c.keyUsage, fresh := c.fresh + 1 }
  obtain ⟨c', hc', hleft⟩ := assignEntry_throws rightFirst dflt value (c := pushed) hk ht
  refine ⟨c', ?_, hleft.2.1, hleft.2.2.1, hleft.not_inv List.mem_cons_self rfl hfresh⟩
  unfold storeM
  rw [get_bind, AList.lookup_eq_none.2 hk]
  simp only
  rw [failAt_pass hlist, modify_bind]
  exact bind_error hc'

/-- A new key, where nothing throws: `store`, but for an identity that the default iterator has
taken. -/
theorem storeM_new (h : c.Inv) (hk : k ∉ c.keyValue) (hroom : c.keyUsage.length < c.capacity)
    (ht : ∀ p ∈ [ThrowPoint.listNode, .makePair, .mapNode, .assign], throwAt ≠ some p) :
    ∃ c', c.store k value = some (false, c') ∧
      storeM rightFirst dflt throwAt k value c = .ok false { c' with fresh := c'.fresh + 1 } ∧
      ({ c' with fresh := c'.fresh + 1 } : CapacityCache κ ν).Inv ∧ c'.capacity = c.capacity := by
  have hinv := h.push hk hroom value
  refine ⟨_, CapacityCache.store_absent (AList.lookup_eq_none.2 hk) value, ?_,
    { hinv with fresh := fun n hn => Nat.lt_succ_of_lt (hinv.fresh n hn) }, rfl⟩
  let pushed : CapacityCache κ ν :=
    { c with keyUsage := ⟨c.fresh, k⟩ :: c.keyUsage, fresh := c.fresh + 1 }
  have hassign := assignEntry_new rightFirst dflt value (c := pushed) hk rfl
    (ht .makePair (by simp)) (ht .mapNode (by simp)) (ht .assign (by simp))
  unfold storeM
  rw [get_bind, AList.lookup_eq_none.2 hk]
  simp only
  rw [failAt_pass (ht .listNode (by simp)), modify_bind]
  exact bind_ok hassign

/-! ### The whole of `update` -/

/-- An update whose eviction does not throw. -/
theorem updateM_eq (h : c.Inv) (hcap : c.capacity ≠ 0) (key : κ)
    (ht : throwAt = some .copyLastKey → c.keyValue.keys.length ≠ c.capacity)
    {c₁ : CapacityCache κ ν} (hbefore : c.beforeStore = some c₁) :
    updateM rightFirst dflt throwAt key value c =
      if throwAt = some .hash then .error .exception c₁
      else storeM rightFirst dflt throwAt (c₁.keyHasher key) value c₁ := by
  unfold updateM
  rw [get_bind, if_neg hcap, bind_ok (makeRoom_returns h hcap ht hbefore)]
  split_ifs with hhash
  · exact failAt_throw hhash
  · rw [failAt_pass hhash, get_bind]

/-- **An operation of an update throws.** The update ends in an exception, and the containers still
agree unless the operation is one of those that orphan the key. -/
theorem updateM_throws (h : c.Inv) (hcap : c.capacity ≠ 0) {key : κ} {p : ThrowPoint}
    (hp : c.Performs key p) :
    ∃ c', updateM rightFirst dflt (some p) key value c = .error .exception c' ∧
      c'.capacity = c.capacity ∧ c'.keyHasher = c.keyHasher ∧ (c'.Inv ↔ ¬ c.Orphans key p) := by
  obtain ⟨c₁, hbefore, h₁, hcap₁, hhash₁, -, -⟩ := CapacityCache.beforeStore_spec h hcap
  have hnew : c.IsNew key ↔ _ := c.isNew_iff h hcap hbefore
  rw [← hhash₁] at hnew
  -- an operation before `push_front`, or on a key that has an entry, orphans nothing
  have keep : ∀ {c' : CapacityCache κ ν}, c'.Inv → ¬ c.Orphans key p →
      (c'.Inv ↔ ¬ c.Orphans key p) := fun hinv hno => iff_of_true hinv hno
  by_cases hlast : p = .copyLastKey
  · subst hlast
    refine ⟨c, ?_, rfl, rfl, keep h fun ho => by simpa using ho.2⟩
    unfold updateM
    rw [get_bind, if_neg hcap]
    exact bind_error (makeRoom_throws h hcap hp rfl)
  · rw [updateM_eq rightFirst dflt value h hcap key (by simp [hlast]) hbefore]
    by_cases hhash : p = .hash
    · subst hhash
      exact ⟨c₁, if_pos rfl, hcap₁, hhash₁, keep h₁ fun ho => by simpa using ho.2⟩
    · rw [if_neg (by simp [hhash])]
      by_cases hk : c₁.keyHasher key ∈ c₁.keyValue
      · have hno : ¬ c.IsNew key := fun hn => hnew.1 hn hk
        have hwrite : some p = some ThrowPoint.makePair ∨ some p = some ThrowPoint.assign := by
          cases p <;> simp_all [CapacityCache.Performs]
        obtain ⟨c', hc', hcap', hhash', hinv⟩ :=
          storeM_present_throws rightFirst dflt value h₁ hk hwrite
        exact ⟨c', hc', hcap'.trans hcap₁, hhash'.trans hhash₁, keep hinv fun ho => hno ho.1⟩
      · have hn : c.IsNew key := hnew.2 hk
        by_cases hlist : p = .listNode
        · subst hlist
          exact ⟨c₁, storeM_listNode rightFirst dflt value hk rfl, hcap₁, hhash₁,
            keep h₁ fun ho => by simpa using ho.2⟩
        · have hwrite : some p = some ThrowPoint.makePair ∨ some p = some ThrowPoint.mapNode ∨
              some p = some ThrowPoint.assign := by
            cases p <;> simp_all [CapacityCache.Performs]
          obtain ⟨c', hc', hcap', hhash', hinv⟩ :=
            storeM_new_throws rightFirst dflt value h₁ hk hwrite
          exact ⟨c', hc', hcap'.trans hcap₁, hhash'.trans hhash₁,
            iff_of_false hinv fun ho => ho ⟨hn, by simpa using hwrite⟩⟩

/-- **No operation of an update throws.** Then it is `update`, but for the number of identities
that were given out. -/
theorem updateM_returns (h : c.Inv) (hcap : c.capacity ≠ 0) {key : κ}
    (ht : ∀ p, throwAt = some p → ¬ c.Performs key p) :
    ∃ b c' fresh, c.update key value = some (b, c') ∧
      updateM rightFirst dflt throwAt key value c = .ok b { c' with fresh := fresh } ∧
      ({ c' with fresh := fresh } : CapacityCache κ ν).Inv ∧ c'.capacity = c.capacity := by
  obtain ⟨c₁, hbefore, h₁, hcap₁, hhash₁, hroom, -⟩ := CapacityCache.beforeStore_spec h hcap
  have hnew : c.IsNew key ↔ _ := c.isNew_iff h hcap hbefore
  rw [← hhash₁] at hnew
  have hpair : throwAt ≠ some .makePair := fun he => ht _ he trivial
  have hassign : throwAt ≠ some .assign := fun he => ht _ he trivial
  have hhash : throwAt ≠ some .hash := fun he => ht _ he trivial
  rw [updateM_eq rightFirst dflt value h hcap key (fun he => ht _ he) hbefore, if_neg hhash,
    CapacityCache.update_eq hcap, hbefore, Option.bind_some]
  by_cases hk : c₁.keyHasher key ∈ c₁.keyValue
  · obtain ⟨c', hstore, hrun, hinv, hcap'⟩ :=
      storeM_present rightFirst dflt value h₁ hk hpair hassign
    exact ⟨true, c', c'.fresh, hstore, hrun, hinv, hcap'.trans hcap₁⟩
  · have hn : c.IsNew key := hnew.2 hk
    have hnone : ∀ p ∈ [ThrowPoint.listNode, .makePair, .mapNode, .assign], throwAt ≠ some p := by
      simp only [List.forall_mem_cons, List.not_mem_nil, false_implies, implies_true, and_true]
      exact ⟨fun he => ht _ he hn, hpair, fun he => ht _ he hn, hassign⟩
    obtain ⟨c', hstore, hrun, hinv, hcap'⟩ :=
      storeM_new rightFirst dflt value h₁ hk (hcap₁ ▸ hroom) hnone
    exact ⟨false, c', _, hstore, hrun, hinv, hcap'.trans hcap₁⟩

/-- **A `get`**, whether one of its operations throws or not, leaves containers that agree. -/
theorem getM_spec (h : c.Inv) (throwAt : Option ThrowPoint) (key : κ) :
    ∃ c', c'.Inv ∧ c'.capacity = c.capacity ∧ c'.keyHasher = c.keyHasher ∧
      (getM throwAt key c = .error .exception c' ∨
        ∃ v, c.get key = some (v, c') ∧ getM throwAt key c = .ok v c') := by
  unfold getM
  by_cases hhash : throwAt = some .hash
  · exact ⟨c, h, rfl, rfl, Or.inl (failAt_throw hhash)⟩
  · rw [failAt_pass hhash, get_bind]
    rcases CapacityCache.get_spec h key with ⟨hk, hget⟩ | ⟨v, it, hk, hn, hget⟩
    · rw [hk]
      exact ⟨c, h, rfl, rfl, Or.inr ⟨none, hget, rfl⟩⟩
    · rw [hk]
      simp only
      rw [bind_ok (spliceM_run h.nodes hn)]
      refine ⟨_, h.moveFront hn, rfl, rfl, ?_⟩
      by_cases hcopy : throwAt = some .copyOut
      · exact Or.inl (failAt_throw hcopy)
      · exact Or.inr ⟨some v, hget, failAt_pass hcopy⟩

end CacheM
end AskUser.Plugin
