import AskUser.CapacityCache
import AskUser.Translator

/-!
# The service plugin

`AskUserPlugin`, loaded by the cynara daemon (`ServicePlugin.cpp`): `check` answers from the cache
or asks the agent, `update` interprets the agent's answer and remembers the two per-life answers,
`invalidate` forgets everything. The cache is keyed by the string that `hasher` makes of a (client,
user, privilege) triple.

* `hasher_injective`: the three lengths at the end of the string, each behind a byte that is no
  digit, are read off from right to left, and they cut the concatenation;
* `Remembers` is the invariant of a run: what the cache holds for a triple is the last per-life
  answer for that triple since the last `invalidate`; every call keeps it (`call_remembers`), and
  no call is undefined;
* `remembered_sound` states what that means for the answers of `check`.
-/

namespace AskUser
open ByteText Plugin SupportedTypes

/-- `Key`: a tuple of client, user and privilege. -/
abbrev Key := Bytes × Bytes × Bytes

/-- `Cynara::PolicyResult`, without the metadata that the plugins leave empty. -/
structure PolicyResult where
  policyType : PolicyType
  deriving DecidableEq

/-- `Cynara::PluginStatus`, as far as the plugin returns it. -/
inductive PluginStatus
  | ANSWER_NOTREADY
  | ANSWER_READY
  | SUCCESS
  | ERROR
  deriving DecidableEq

def hasher (key : Key) : Bytes :=
  let separator : UInt8 := 1  -- the byte `\1`
  let (client, user, privilege) := key
  client ++ user ++ privilege ++ separator ::
    numeral client.length ++ separator ::
    numeral user.length ++ separator ::
    numeral privilege.length

theorem hasher_injective : Function.Injective hasher := by
  have hsep : isDigit 1 = false := by decide
  rintro ⟨c, u, p⟩ ⟨c', u', p'⟩ h
  unfold hasher at h
  -- from right to left: the three lengths, and with them where the strings are cut
  obtain ⟨h, hp⟩ := append_numeral_inj hsep h
  obtain ⟨h, hu⟩ := append_numeral_inj hsep h
  obtain ⟨h, hc⟩ := append_numeral_inj hsep h
  have hcu := List.append_inj h (by simp [hc, hu])
  obtain ⟨rfl, rfl⟩ := List.append_inj hcu.1 hc
  rw [hcu.2]

/-- **The cache key is collision free.** -/
theorem hasher_eq_iff (client₁ user₁ privilege₁ client₂ user₂ privilege₂ : Bytes) :
    hasher (client₁, user₁, privilege₁) = hasher (client₂, user₂, privilege₂) ↔
      client₁ = client₂ ∧ user₁ = user₂ ∧ privilege₁ = privilege₂ := by
  rw [hasher_injective.eq_iff, Prod.mk.injEq, Prod.mk.injEq]

/-- The plugin object. -/
structure AskUserPlugin where
  cache : CapacityCache Key PolicyResult

/-- The output parameters of `check`. -/
structure CheckOutput where
  result : PolicyResult
  requiredAgent : Bytes
  pluginData : PluginData
  deriving DecidableEq

namespace AskUserPlugin

/-- The constructor. -/
def new : AskUserPlugin := ⟨.new hasher cacheDefaultCapacity⟩

variable (P : PredefinedPolicyType)

/-- `check`, over the values `out` that its output parameters have before the call. -/
def check (plugin : AskUserPlugin) (key : Key) (out : CheckOutput) :
    Option (PluginStatus × CheckOutput × AskUserPlugin) :=
  match plugin.cache.get key with
  | none => none
  | some (none, cache) =>
    some (.ANSWER_NOTREADY, { out with
      pluginData := Translator.Plugin.requestToData key.1 key.2.1 key.2.2
      requiredAgent := AgentType }, ⟨cache⟩)
  | some (some result, cache) =>
    if result.policyType = Client.ALLOW_PER_LIFE then
      some (.ANSWER_READY, { out with result := ⟨P.ALLOW⟩ }, ⟨cache⟩)
    else some (.ANSWER_READY, { out with result := ⟨P.DENY⟩ }, ⟨cache⟩)

/-- `update`, over the value that its output parameter `result` has before the call. -/
def update (plugin : AskUserPlugin) (key : Key) (agentData : PluginData) (result : PolicyResult) :
    Option (PluginStatus × PolicyResult × AskUserPlugin) :=
  match Translator.Plugin.dataToAnswer P agentData with
  | .error _ => some (.ERROR, result, plugin)
  | .ok resultType =>
    if resultType = Client.ALLOW_PER_LIFE then
      match plugin.cache.update key ⟨resultType⟩ with
      | none => none
      | some (_, cache) => some (.SUCCESS, ⟨P.ALLOW⟩, ⟨cache⟩)
    else if resultType = Client.DENY_PER_LIFE then
      match plugin.cache.update key ⟨resultType⟩ with
      | none => none
      | some (_, cache) => some (.SUCCESS, ⟨P.DENY⟩, ⟨cache⟩)
    else some (.SUCCESS, ⟨resultType⟩, plugin)

def invalidate (plugin : AskUserPlugin) : AskUserPlugin := ⟨plugin.cache.clear⟩

/-! ### Runs -/

/-- A call of the cynara daemon. -/
inductive Call
  | check (key : Key) (out : CheckOutput)
  | update (key : Key) (agentData : PluginData) (result : PolicyResult)
  | invalidate

/-- The plugin after a call; `none` where the call is undefined. -/
def call (plugin : AskUserPlugin) : Call → Option AskUserPlugin
  | .check key out => (plugin.check P key out).map fun r => r.2.2
  | .update key agentData result => (plugin.update P key agentData result).map fun r => r.2.2
  | .invalidate => some plugin.invalidate

/-- The plugin after a sequence of calls. -/
def calls (plugin : AskUserPlugin) : List Call → Option AskUserPlugin
  | [] => some plugin
  | x :: xs => (plugin.call P x).bind fun plugin => plugin.calls xs

/-- The per-life answer that a call brings for a triple, if it does. -/
def perLifeAnswer (key : Key) : Call → Option PolicyType
  | .update key' agentData _ =>
    if key' = key then
      match Translator.Plugin.dataToAnswer P agentData with
      | .error _ => none
      | .ok t => if Client.IsPerLife t then some t else none
    else none
  | _ => none

/-- The last per-life answer for a triple since the last `invalidate`, in a history whose latest
call comes first. -/
def lastPerLife (key : Key) : List Call → Option PolicyType
  | [] => none
  | .invalidate :: _ => none
  | x :: xs => (perLifeAnswer P key x).or (lastPerLife key xs)

/-- The cache agrees with the history of calls, latest first. -/
structure Remembers (plugin : AskUserPlugin) (history : List Call) : Prop where
  inv : plugin.cache.Inv
  capacity : plugin.cache.capacity = cacheDefaultCapacity
  hasher : plugin.cache.keyHasher = AskUser.hasher
  entry : ∀ {key r it}, plugin.cache.keyValue.lookup (AskUser.hasher key) = some (r, it) →
    lastPerLife P key history = some r.policyType

variable {P} {plugin : AskUserPlugin} {history : List Call}

theorem remembers_new : Remembers P new [] where
  inv := CapacityCache.Inv.new ..
  capacity := rfl
  hasher := rfl
  entry := by simp [new, CapacityCache.new]

/-- `check` is defined: it asks the agent on a miss, and on a hit gives the decision that the stored
answer stands for. The entries of the cache are left as they are. -/
theorem check_spec (h : Remembers P plugin history) (key : Key) (out : CheckOutput) :
    ∃ status out' usage, plugin.check P key out =
        some (status, out', ⟨{ plugin.cache with keyUsage := usage }⟩) ∧
      Remembers P ⟨{ plugin.cache with keyUsage := usage }⟩ history ∧
      ((status = .ANSWER_NOTREADY ∧ plugin.cache.keyValue.lookup (AskUser.hasher key) = none ∧
          out'.result = out.result) ∨
        ∃ r it, status = .ANSWER_READY ∧
          plugin.cache.keyValue.lookup (AskUser.hasher key) = some (r, it) ∧
          out'.result = ⟨if r.policyType = Client.ALLOW_PER_LIFE then P.ALLOW else P.DENY⟩) := by
  rcases CapacityCache.get_spec h.inv key with ⟨hk, hget⟩ | ⟨r, it, hk, hn, hget⟩
  · rw [h.hasher] at hk
    exact ⟨.ANSWER_NOTREADY, { out with
      pluginData := Translator.Plugin.requestToData key.1 key.2.1 key.2.2
      requiredAgent := AgentType }, plugin.cache.keyUsage, by simp only [check, hget], h,
      Or.inl ⟨rfl, hk, rfl⟩⟩
  · have hinv := h.inv.moveFront hn
    rw [h.hasher] at hk
    by_cases hr : r.policyType = Client.ALLOW_PER_LIFE
    · exact ⟨.ANSWER_READY, { out with result := ⟨P.ALLOW⟩ }, _,
        by simp only [check, hget, if_pos hr], ⟨hinv, h.capacity, h.hasher, h.entry⟩,
        Or.inr ⟨r, it, rfl, hk, by simp [hr]⟩⟩
    · exact ⟨.ANSWER_READY, { out with result := ⟨P.DENY⟩ }, _,
        by simp only [check, hget, if_neg hr], ⟨hinv, h.capacity, h.hasher, h.entry⟩,
        Or.inr ⟨r, it, rfl, hk, by simp [hr]⟩⟩

theorem perLifeAnswer_of_not_perLife {key key' : Key} {data : PluginData} {result : PolicyResult}
    (h : ∀ t, Translator.Plugin.dataToAnswer P data = .ok t → ¬ Client.IsPerLife t) :
    perLifeAnswer P key (.update key' data result) = none := by
  simp only [perLifeAnswer]
  split_ifs with hk
  · cases hd : Translator.Plugin.dataToAnswer P data with
    | error e => rfl
    | ok t => simp [h t hd]
  · rfl

/-- A call that brings no per-life answer leaves the agreement as it is. -/
theorem Remembers.skip (h : Remembers P plugin history) {x : Call} (hx : x ≠ .invalidate)
    (hnone : ∀ key, perLifeAnswer P key x = none) : Remembers P plugin (x :: history) where
  inv := h.inv
  capacity := h.capacity
  hasher := h.hasher
  entry := fun {key r it} hk => by
    have := h.entry hk
    cases x with
    | invalidate => exact absurd rfl hx
    | check k out => simpa [lastPerLife, hnone] using this
    | update k data result => simpa [lastPerLife, hnone] using this

/-- Storing a per-life answer for a triple. -/
theorem Remembers.store (h : Remembers P plugin history) (key : Key) {data : PluginData}
    {t : PolicyType} (result : PolicyResult)
    (hd : Translator.Plugin.dataToAnswer P data = .ok t) (ht : Client.IsPerLife t) :
    ∃ b cache, plugin.cache.update key ⟨t⟩ = some (b, cache) ∧
      Remembers P ⟨cache⟩ (.update key data result :: history) ∧
      ∃ it, cache.keyValue.lookup (AskUser.hasher key) = some (⟨t⟩, it) := by
  obtain ⟨b, cache, hupdate, hinv, hcap, hhash, ⟨it, hnew⟩, hold⟩ :=
    CapacityCache.update_spec h.inv (by rw [h.capacity]; decide) key ⟨t⟩
  rw [h.hasher] at hnew hold
  refine ⟨b, cache, hupdate, ⟨hinv, hcap.trans h.capacity, hhash.trans h.hasher, ?_⟩, it, hnew⟩
  -- an eviction only drops entries; the entry of `key` is new, the others were there before
  intro key' r it' hk'
  by_cases hkk : key' = key
  · subst hkk
    rw [hnew, Option.some.injEq, Prod.mk.injEq] at hk'
    obtain ⟨rfl, -⟩ := hk'
    simp [lastPerLife, perLifeAnswer, hd, ht]
  · have hne : AskUser.hasher key' ≠ AskUser.hasher key := fun he => hkk (hasher_injective he)
    have := h.entry (hold _ hne _ hk')
    simpa [lastPerLife, perLifeAnswer, Ne.symm hkk] using this

/-- `update` with a per-life answer, by the update of the cache. -/
theorem update_perLife {key : Key} {data : PluginData} {t : PolicyType} (result : PolicyResult)
    (hd : Translator.Plugin.dataToAnswer P data = .ok t) (ht : Client.IsPerLife t) {b : Bool}
    {cache : CapacityCache Key PolicyResult}
    (hupdate : plugin.cache.update key ⟨t⟩ = some (b, cache)) :
    plugin.update P key data result =
      some (.SUCCESS, ⟨if t = Client.ALLOW_PER_LIFE then P.ALLOW else P.DENY⟩, ⟨cache⟩) := by
  by_cases hallow : t = Client.ALLOW_PER_LIFE
  · simp only [update, hd, if_pos hallow, hupdate]
  · have hdeny : t = Client.DENY_PER_LIFE := ht.resolve_left hallow
    simp only [update, hd, if_neg hallow, if_pos hdeny, hupdate]

/-- `update` with any other answer. -/
theorem update_not_perLife {key : Key} {data : PluginData} {t : PolicyType} (result : PolicyResult)
    (hd : Translator.Plugin.dataToAnswer P data = .ok t) (ht : ¬ Client.IsPerLife t) :
    plugin.update P key data result = some (.SUCCESS, ⟨t⟩, plugin) := by
  have hallow : t ≠ Client.ALLOW_PER_LIFE := fun he => ht (Or.inl he)
  have hdeny : t ≠ Client.DENY_PER_LIFE := fun he => ht (Or.inr he)
  simp only [update, hd, if_neg hallow, if_neg hdeny]

/-- `update` is defined, and its cases are those of the decoded answer. -/
theorem update_spec (h : Remembers P plugin history) (key : Key) (data : PluginData)
    (result : PolicyResult) :
    ∃ status result' plugin', plugin.update P key data result = some (status, result', plugin') ∧
      Remembers P plugin' (.update key data result :: history) ∧
      ((∃ e, Translator.Plugin.dataToAnswer P data = .error e ∧ status = .ERROR ∧
          result' = result ∧ plugin' = plugin) ∨
        ∃ t, Translator.Plugin.dataToAnswer P data = .ok t ∧ status = .SUCCESS ∧
          ((Client.IsPerLife t ∧
              result' = ⟨if t = Client.ALLOW_PER_LIFE then P.ALLOW else P.DENY⟩ ∧
              ∃ it, plugin'.cache.keyValue.lookup (AskUser.hasher key) = some (⟨t⟩, it)) ∨
            (¬ Client.IsPerLife t ∧ result' = ⟨t⟩ ∧ plugin' = plugin))) := by
  cases hd : Translator.Plugin.dataToAnswer P data with
  | error e =>
    refine ⟨.ERROR, result, plugin, by simp only [update, hd], h.skip (by simp) fun k => ?_,
      Or.inl ⟨e, rfl, rfl, rfl, rfl⟩⟩
    exact perLifeAnswer_of_not_perLife fun t ht => by simp [hd] at ht
  | ok t =>
    by_cases ht : Client.IsPerLife t
    · obtain ⟨b, cache, hupdate, hrem, hnew⟩ := h.store key result hd ht
      exact ⟨_, _, _, update_perLife result hd ht hupdate, hrem,
        Or.inr ⟨t, rfl, rfl, Or.inl ⟨ht, rfl, hnew⟩⟩⟩
    · refine ⟨_, _, _, update_not_perLife result hd ht, h.skip (by simp) fun k => ?_,
        Or.inr ⟨t, rfl, rfl, Or.inr ⟨ht, rfl, rfl⟩⟩⟩
      refine perLifeAnswer_of_not_perLife fun t' ht' => ?_
      rw [hd, Except.ok.injEq] at ht'
      exact ht' ▸ ht

/-- **One call** is defined and keeps the agreement with the history. -/
theorem call_remembers (h : Remembers P plugin history) (x : Call) :
    ∃ plugin', plugin.call P x = some plugin' ∧ Remembers P plugin' (x :: history) := by
  cases x with
  | check key out =>
    obtain ⟨status, out', usage, hcheck, hrem, -⟩ := check_spec h key out
    exact ⟨_, by simp only [call, hcheck, Option.map_some], hrem.skip (by simp) fun _ => rfl⟩
  | update key data result =>
    obtain ⟨status, result', plugin', hupdate, hrem, -⟩ := update_spec h key data result
    exact ⟨plugin', by simp [call, hupdate], hrem⟩
  | invalidate =>
    exact ⟨_, rfl, ⟨CapacityCache.inv_clear _, h.capacity, h.hasher, by
      simp [invalidate, CapacityCache.clear]⟩⟩

/-- **A run** is defined and keeps the agreement. -/
theorem calls_remembers (h : Remembers P plugin history) (xs : List Call) :
    ∃ plugin', plugin.calls P xs = some plugin' ∧ Remembers P plugin' (xs.reverse ++ history) := by
  induction xs generalizing plugin history with
  | nil => exact ⟨plugin, rfl, h⟩
  | cons x xs ih =>
    obtain ⟨plugin₁, hcall, h₁⟩ := call_remembers h x
    obtain ⟨plugin₂, hcalls, h₂⟩ := ih h₁
    exact ⟨plugin₂, by simp [calls, hcall, hcalls], by simpa using h₂⟩

/-- The last per-life answer is one of the history's updates, and no later call has replaced it. -/
theorem lastPerLife_eq_some {key : Key} {t : PolicyType} (h : lastPerLife P key history = some t) :
    ∃ recent data result older, history = recent ++ .update key data result :: older ∧
      .invalidate ∉ recent ∧ Translator.Plugin.dataToAnswer P data = .ok t ∧ Client.IsPerLife t ∧
      ∀ x ∈ recent, perLifeAnswer P key x = none := by
  induction history with
  | nil => simp [lastPerLife] at h
  | cons x history ih =>
    cases hx : perLifeAnswer P key x with
    | some t' =>
      cases x with
      | check k out => simp [perLifeAnswer] at hx
      | invalidate => simp [perLifeAnswer] at hx
      | update key' data result =>
        have htt : t' = t := by simpa [lastPerLife, hx] using h
        subst htt
        simp only [perLifeAnswer] at hx
        split_ifs at hx with hkk
        subst hkk
        cases hd : Translator.Plugin.dataToAnswer P data with
        | error e => simp [hd] at hx
        | ok d =>
          rw [hd] at hx
          simp only [Option.ite_none_right_eq_some, Option.some.injEq] at hx
          obtain ⟨hlife, rfl⟩ := hx
          exact ⟨[], data, result, history, rfl, by simp, hd, hlife, by simp⟩
    | none =>
      have hne : x ≠ .invalidate := by rintro rfl; simp [lastPerLife] at h
      have h' : lastPerLife P key history = some t := by
        cases x with
        | check k out => simpa [lastPerLife, hx] using h
        | invalidate => exact absurd rfl hne
        | update k data result => simpa [lastPerLife, hx] using h
      obtain ⟨recent, data, result, older, rfl, hinv, hd, hlife, hrec⟩ := ih h'
      refine ⟨x :: recent, data, result, older, rfl, ?_, hd, hlife, ?_⟩
      · simp [hinv, Ne.symm hne]
      · simp only [List.mem_cons, forall_eq_or_imp]
        exact ⟨hx, hrec⟩

theorem not_perLife_of_reserved {t : PolicyType} (h : t ∉ Client.types) : ¬ Client.IsPerLife t :=
  fun hlife => h hlife.mem_types

theorem not_perLife_decision (P : PredefinedPolicyType) (b : Prop) [Decidable b] :
    ¬ Client.IsPerLife (if b then P.ALLOW else P.DENY) := by
  split_ifs
  · exact not_perLife_of_reserved P.allow_reserved
  · exact not_perLife_of_reserved P.deny_reserved

/-- **Soundness of remembered decisions.** After any sequence of calls on a new plugin, a `check`
that is ready gives the decision of the latest per-life answer to an update for the same triple
since the last `invalidate`, and neither `check` nor `update` hands out a per-life type. -/
theorem remembered_sound (P : PredefinedPolicyType) (xs : List Call) :
    ∃ plugin, new.calls P xs = some plugin ∧
      (∀ key out, ∃ status out' plugin', plugin.check P key out = some (status, out', plugin') ∧
        (status = .ANSWER_NOTREADY ∨ status = .ANSWER_READY) ∧
        (status = .ANSWER_READY →
          ¬ Client.IsPerLife out'.result.policyType ∧
          ∃ older data result recent t, xs = older ++ .update key data result :: recent ∧
            .invalidate ∉ recent ∧ Translator.Plugin.dataToAnswer P data = .ok t ∧
            (∀ data' result' t', .update key data' result' ∈ recent →
              Translator.Plugin.dataToAnswer P data' = .ok t' → ¬ Client.IsPerLife t') ∧
            (t = Client.ALLOW_PER_LIFE ∧ out'.result = ⟨P.ALLOW⟩ ∨
              t = Client.DENY_PER_LIFE ∧ out'.result = ⟨P.DENY⟩))) ∧
      ∀ key data result, ∃ status result' plugin',
        plugin.update P key data result = some (status, result', plugin') ∧
        (status = .SUCCESS → ¬ Client.IsPerLife result'.policyType) := by
  obtain ⟨plugin, hcalls, hrem⟩ := calls_remembers (P := P) remembers_new xs
  refine ⟨plugin, hcalls, fun key out => ?_, fun key data result => ?_⟩
  · obtain ⟨status, out', usage, hcheck, -, hcase⟩ := check_spec hrem key out
    refine ⟨status, out', _, hcheck, ?_, fun hready => ?_⟩
    · rcases hcase with ⟨hs, -⟩ | ⟨-, -, hs, -⟩
      · exact Or.inl hs
      · exact Or.inr hs
    · rcases hcase with ⟨hs, -⟩ | ⟨r, it, -, hk, hres⟩
      · exact absurd (hs.symm.trans hready) (by simp)
      · obtain ⟨recent, data, result, older, hsplit, hinv, hd, hlife, hrec⟩ :=
          lastPerLife_eq_some (hrem.entry hk)
        rw [List.append_nil] at hsplit
        have hxs : xs = older.reverse ++ .update key data result :: recent.reverse := by
          rw [← List.reverse_reverse xs, hsplit]
          simp
        refine ⟨by rw [hres]; exact not_perLife_decision P _, older.reverse, data, result,
          recent.reverse, r.policyType, hxs, by simpa using hinv, hd, ?_, ?_⟩
        · intro data' result' t' hmem hd' hlife'
          have := hrec _ (List.mem_reverse.1 hmem)
          simp [perLifeAnswer, hd', hlife'] at this
        · rcases hlife with ht | ht
          · exact Or.inl ⟨ht, by simp [hres, ht]⟩
          · have hne : r.policyType ≠ Client.ALLOW_PER_LIFE := by rw [ht]; decide
            exact Or.inr ⟨ht, by simp [hres, hne]⟩
  · obtain ⟨status, result', plugin', hupdate, -, hcase⟩ := update_spec hrem key data result
    refine ⟨status, result', plugin', hupdate, fun hs => ?_⟩
    rcases hcase with ⟨e, -, hs', -⟩ | ⟨t, -, -, ⟨-, hres, -⟩ | ⟨hlife, hres, -⟩⟩
    · exact absurd (hs'.symm.trans hs) (by simp)
    · rw [hres]
      exact not_perLife_decision P _
    · rw [hres]
      exact hlife

end AskUserPlugin

end AskUser
