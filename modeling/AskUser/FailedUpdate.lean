import AskUser.CacheFailure
import AskUser.Lib.Run
import AskUser.ServicePlugin

/-!
# When an update of the plugin fails

`check` and `update` turn every exception into `ERROR`, and the plugin lives on with what the
exception has left. Here both are followed through a throw at any of their statements, and through
runs of such calls.

* `tryCheck` and `tryUpdate` are the `try` blocks; where nothing throws, `updateM` is
  `AskUserPlugin.update`, but for identities in the cache (`updateM_returns`);
* `UsableAfter` is what should hold after a throw: the error is reported, no per-life type is left
  in `result`, and the cache is in order;
* `usableAfter_iff`: it holds unless something throws once a per-life answer is in `result`, or
  nothing was stored and the caller's `result` was per-life itself. Apart from `result`, the cache
  is in order unless the throw orphans a key.
-/

namespace AskUser
open ByteText Plugin SupportedTypes Fallible

/-- The statements of `check` and `update` that can throw. -/
inductive PluginPoint
  /-- `dataToAnswer` in `update`, `requestToData` in `check` -/
  | translate
  /-- `AgentType(..)`, in `check` -/
  | copyAgentType
  /-- `result = PolicyResult(resultType)` -/
  | storeResult
  /-- `Key(client, user, privilege)` -/
  | copyKey
  | cache (p : ThrowPoint)
  /-- `result = PolicyResult(..)` with the decision -/
  | storeDecision
  deriving DecidableEq

/-- The point in the cache, if it is one. -/
def PluginPoint.inCache : PluginPoint → Option ThrowPoint
  | .cache p => some p
  | _ => none

/-- What a call works on: its output parameters, and the plugin. -/
structure CallState (ω : Type) where
  out : ω
  plugin : AskUserPlugin

abbrev PluginM (ω : Type) := EStateM CacheAbort (CallState ω)

namespace PluginM

variable {ω α : Type} (P : PredefinedPolicyType) (rightFirst : Bool) (dflt : PolicyResult)
  (throwAt : Option PluginPoint)

/-- A run on the cache of the plugin. -/
def onCache (x : CacheM Key PolicyResult α) : PluginM ω α := fun s =>
  match x s.plugin.cache with
  | .ok a cache => .ok a { s with plugin := ⟨cache⟩ }
  | .error e cache => .error e { s with plugin := ⟨cache⟩ }

/-- The `try` block of `check`. -/
def tryCheck (key : Key) : PluginM CheckOutput PluginStatus := do
  failAt throwAt .copyKey .exception
  match ← onCache (CacheM.getM (throwAt.bind PluginPoint.inCache) key) with
  | none =>
    failAt throwAt .translate .exception
    modify fun s => { s with
      out.pluginData := Translator.Plugin.requestToData key.1 key.2.1 key.2.2 }
    failAt throwAt .copyAgentType .exception
    modify fun s => { s with out.requiredAgent := AgentType }
    return .ANSWER_NOTREADY
  | some result =>
    -- `get` has written what it found
    modify fun s => { s with out.result := result }
    failAt throwAt .storeDecision .exception
    if result.policyType = Client.ALLOW_PER_LIFE then
      modify fun s => { s with out.result := ⟨P.ALLOW⟩ }
    else modify fun s => { s with out.result := ⟨P.DENY⟩ }
    return .ANSWER_READY

/-- `m_cache.update(..)` for a per-life answer, and the decision that the caller is given. -/
def remember (key : Key) (resultType decision : PolicyType) : PluginM PolicyResult Unit := do
  failAt throwAt .copyKey .exception
  let _ ← onCache (CacheM.updateM rightFirst dflt (throwAt.bind PluginPoint.inCache) key
    ⟨resultType⟩)
  failAt throwAt .storeDecision .exception
  modify fun s => { s with out := ⟨decision⟩ }

/-- The `try` block of `update`. -/
def tryUpdate (key : Key) (agentData : PluginData) : PluginM PolicyResult Unit := do
  failAt throwAt .translate .exception
  match Translator.Plugin.dataToAnswer P agentData with
  | .error _ => throw .exception
  | .ok resultType =>
    failAt throwAt .storeResult .exception
    modify fun s => { s with out := ⟨resultType⟩ }
    if resultType = Client.ALLOW_PER_LIFE then
      remember rightFirst dflt throwAt key resultType P.ALLOW
    else if resultType = Client.DENY_PER_LIFE then
      remember rightFirst dflt throwAt key resultType P.DENY
    else return

end PluginM

namespace AskUserPlugin
open PluginM

variable (P : PredefinedPolicyType) (rightFirst : Bool) (dflt : PolicyResult)

/-- `check`, with a throw at a point of it. -/
def checkM (plugin : AskUserPlugin) (key : Key) (out : CheckOutput)
    (throwAt : Option PluginPoint) : Option (PluginStatus × CheckOutput × AskUserPlugin) :=
  match tryCheck P throwAt key ⟨out, plugin⟩ with
  | .ok status s => some (status, s.out, s.plugin)
  | .error .exception s => some (.ERROR, s.out, s.plugin)
  | .error .undefined _ => none

/-- `update`, with a throw at a point of it. -/
def updateM (plugin : AskUserPlugin) (key : Key) (agentData : PluginData) (result : PolicyResult)
    (throwAt : Option PluginPoint) : Option (PluginStatus × PolicyResult × AskUserPlugin) :=
  match tryUpdate P rightFirst dflt throwAt key agentData ⟨result, plugin⟩ with
  | .ok () s => some (.SUCCESS, s.out, s.plugin)
  | .error .exception s => some (.ERROR, s.out, s.plugin)
  | .error .undefined _ => none

/-- A call of the cynara daemon, with the point at which it throws, if it does. -/
inductive FallibleCall
  | check (key : Key) (out : CheckOutput) (throwAt : Option PluginPoint)
  | update (key : Key) (agentData : PluginData) (result : PolicyResult)
      (throwAt : Option PluginPoint)
  | invalidate

/-- The plugin after a call; `none` where the call is undefined. -/
def fallibleCall : FallibleCall → AskUserPlugin → Option AskUserPlugin
  | .check key out throwAt, plugin => (plugin.checkM P key out throwAt).map fun r => r.2.2
  | .update key agentData result throwAt, plugin =>
    (plugin.updateM P rightFirst dflt key agentData result throwAt).map fun r => r.2.2
  | .invalidate, plugin => some plugin.invalidate

/-! ### What holds before and after -/

/-- The cache of the plugin is in order. -/
structure InOrder (plugin : AskUserPlugin) : Prop where
  inv : plugin.cache.Inv
  capacity : plugin.cache.capacity = cacheDefaultCapacity

/-- `update` throws before it stores anything. -/
def ThrowsEarly (agentData : PluginData) (throwAt : Option PluginPoint) : Prop :=
  throwAt = some .translate ∨ (∃ e, Translator.Plugin.dataToAnswer P agentData = .error e) ∨
    throwAt = some .storeResult

/-- `update` performs the statement after it has stored a per-life answer in `result`. -/
def PerformsLate (plugin : AskUserPlugin) (key : Key) : PluginPoint → Prop
  | .copyKey | .storeDecision => True
  | .cache p => plugin.cache.Performs key p
  | .translate | .copyAgentType | .storeResult => False

/-- A throw there orphans the key in the cache. -/
def OrphansAt (plugin : AskUserPlugin) (key : Key) (q : PluginPoint) : Prop :=
  ∃ p, q = .cache p ∧ plugin.cache.Orphans key p

variable {P rightFirst dflt} {plugin : AskUserPlugin} {throwAt : Option PluginPoint} {key : Key}
  {agentData : PluginData} {t : PolicyType}

theorem InOrder.capacity_ne_zero (h : plugin.InOrder) : plugin.cache.capacity ≠ 0 := by
  rw [h.capacity]
  decide

theorem inOrder_new : new.InOrder := ⟨CapacityCache.Inv.new .., rfl⟩

theorem orphansAt_performsLate {q : PluginPoint} (h : plugin.OrphansAt key q) :
    plugin.PerformsLate key q := by
  obtain ⟨p, rfl, hnew, hp⟩ := h
  simp only [List.mem_cons, List.not_mem_nil, or_false] at hp
  rcases hp with rfl | rfl | rfl
  · exact trivial
  · exact hnew
  · exact trivial

theorem not_performsLate_of_early {q : PluginPoint} (he : ThrowsEarly P agentData (some q))
    (hd : Translator.Plugin.dataToAnswer P agentData = .ok t) : ¬ plugin.PerformsLate key q := by
  rcases he with he | ⟨e, he⟩ | he
  · obtain rfl := Option.some.inj he
    exact id
  · rw [hd] at he
    exact absurd he (by simp)
  · obtain rfl := Option.some.inj he
    exact id

section Remember

variable {s : CallState PolicyResult} {decision : PolicyType}

theorem onCache_ok {ω α : Type} {x : CacheM Key PolicyResult α} {s : CallState ω} {a : α}
    {cache : CapacityCache Key PolicyResult} (h : x s.plugin.cache = .ok a cache) :
    onCache x s = .ok a { s with plugin := ⟨cache⟩ } := by
  simp only [onCache, h]

theorem onCache_error {ω α : Type} {x : CacheM Key PolicyResult α} {s : CallState ω}
    {e : CacheAbort} {cache : CapacityCache Key PolicyResult}
    (h : x s.plugin.cache = .error e cache) :
    onCache x s = .error e { s with plugin := ⟨cache⟩ } := by
  simp only [onCache, h]

/-- Where nothing throws, the cache is updated and the decision given. -/
theorem remember_returns (h : s.plugin.InOrder)
    (ht : ∀ q, throwAt = some q → ¬ s.plugin.PerformsLate key q) :
    ∃ b cache fresh, s.plugin.cache.update key ⟨t⟩ = some (b, cache) ∧
      remember rightFirst dflt throwAt key t decision s =
        .ok () ⟨⟨decision⟩, ⟨{ cache with fresh := fresh }⟩⟩ ∧
      InOrder ⟨{ cache with fresh := fresh }⟩ := by
  have hcache : ∀ p, throwAt.bind PluginPoint.inCache = some p →
      ¬ s.plugin.cache.Performs key p := by
    intro p hp
    obtain ⟨q, rfl, hq⟩ := Option.bind_eq_some_iff.1 hp
    cases q with
    | cache p' =>
      obtain rfl := Option.some.inj hq
      exact ht _ rfl
    | translate | copyAgentType | storeResult | copyKey | storeDecision =>
      exact absurd hq (by simp [PluginPoint.inCache])
  obtain ⟨b, cache, fresh, hupdate, hrun, hinv, hcap⟩ :=
    CacheM.updateM_returns rightFirst dflt ⟨t⟩ h.inv h.capacity_ne_zero hcache
  refine ⟨b, cache, fresh, hupdate, ?_, hinv, hcap.trans h.capacity⟩
  have hcopy : throwAt ≠ some .copyKey := fun he => ht _ he trivial
  have hdecision : throwAt ≠ some .storeDecision := fun he => ht _ he trivial
  unfold remember
  rw [failAt_pass hcopy, bind_ok (onCache_ok hrun), failAt_pass hdecision]
  rfl

/-- A throw after the answer was stored leaves it in `result`, and orphans the key or not. -/
theorem remember_throws (h : s.plugin.InOrder) {q : PluginPoint}
    (hq : s.plugin.PerformsLate key q) :
    ∃ s', remember rightFirst dflt (some q) key t decision s = .error .exception s' ∧
      s'.out = s.out ∧ s'.plugin.cache.capacity = cacheDefaultCapacity ∧
      (s'.plugin.cache.Inv ↔ ¬ s.plugin.OrphansAt key q) := by
  unfold remember
  cases q with
  | translate | copyAgentType | storeResult => exact hq.elim
  | copyKey =>
    exact ⟨s, failAt_throw rfl, rfl, h.capacity, iff_of_true h.inv (by simp [OrphansAt])⟩
  | storeDecision =>
    have hnone : ∀ p, (some PluginPoint.storeDecision).bind PluginPoint.inCache = some p →
        ¬ s.plugin.cache.Performs key p := by simp [PluginPoint.inCache]
    obtain ⟨b, cache, fresh, -, hrun, hinv, hcap⟩ :=
      CacheM.updateM_returns rightFirst dflt ⟨t⟩ h.inv h.capacity_ne_zero hnone
    refine ⟨{ s with plugin := ⟨{ cache with fresh := fresh }⟩ }, ?_, rfl,
      hcap.trans h.capacity, iff_of_true hinv (by simp [OrphansAt])⟩
    rw [failAt_pass (by simp), bind_ok (onCache_ok hrun), failAt_throw rfl]
  | cache p =>
    obtain ⟨cache, hrun, hcap, -, hinv⟩ :=
      CacheM.updateM_throws rightFirst dflt ⟨t⟩ h.inv h.capacity_ne_zero hq
    refine ⟨{ s with plugin := ⟨cache⟩ }, ?_, rfl, hcap.trans h.capacity, ?_⟩
    · rw [failAt_pass (by simp)]
      exact bind_error (onCache_error hrun)
    · simpa [OrphansAt] using hinv

/-! ### The `try` block of `update` -/

theorem tryUpdate_early (he : ThrowsEarly P agentData throwAt) :
    tryUpdate P rightFirst dflt throwAt key agentData s = .error .exception s := by
  unfold tryUpdate
  by_cases htrans : throwAt = some .translate
  · exact failAt_throw htrans
  · rw [failAt_pass htrans]
    rcases he with he | ⟨e, he⟩ | he
    · exact absurd he htrans
    · rw [he]
      rfl
    · cases hd : Translator.Plugin.dataToAnswer P agentData with
      | error e => rfl
      | ok t => exact failAt_throw he

/-- Once the answer is stored, the two per-life answers are remembered. -/
theorem tryUpdate_late (he : ¬ ThrowsEarly P agentData throwAt)
    (hd : Translator.Plugin.dataToAnswer P agentData = .ok t) :
    tryUpdate P rightFirst dflt throwAt key agentData s =
      if Client.IsPerLife t then
        remember rightFirst dflt throwAt key t
          (if t = Client.ALLOW_PER_LIFE then P.ALLOW else P.DENY) { s with out := ⟨t⟩ }
      else .ok () { s with out := ⟨t⟩ } := by
  simp only [ThrowsEarly, not_or] at he
  unfold tryUpdate
  rw [failAt_pass he.1, hd]
  simp only
  rw [failAt_pass he.2.2, modify_bind]
  by_cases hallow : t = Client.ALLOW_PER_LIFE
  · have hlife : Client.IsPerLife t := Or.inl hallow
    rw [if_pos hallow, if_pos hlife, if_pos hallow]
  · by_cases hdeny : t = Client.DENY_PER_LIFE
    · have hlife : Client.IsPerLife t := Or.inr hdeny
      rw [if_neg hallow, if_pos hdeny, if_pos hlife, if_neg hallow]
    · have hlife : ¬ Client.IsPerLife t := not_or.2 ⟨hallow, hdeny⟩
      rw [if_neg hallow, if_neg hdeny, if_neg hlife]
      rfl

end Remember

variable (P rightFirst dflt) in
/-- **How the `try` block of `update` ends**: it throws before anything is stored, or after a
per-life answer is, or it comes to its end. -/
theorem tryUpdate_cases (h : plugin.InOrder) (key : Key) (agentData : PluginData)
    (result : PolicyResult) (throwAt : Option PluginPoint) :
    (ThrowsEarly P agentData throwAt ∧
        tryUpdate P rightFirst dflt throwAt key agentData ⟨result, plugin⟩ =
          .error .exception ⟨result, plugin⟩) ∨
      (∃ t q s', Translator.Plugin.dataToAnswer P agentData = .ok t ∧ Client.IsPerLife t ∧
        throwAt = some q ∧ plugin.PerformsLate key q ∧
        tryUpdate P rightFirst dflt throwAt key agentData ⟨result, plugin⟩ = .error .exception s' ∧
        s'.out = ⟨t⟩ ∧ s'.plugin.cache.capacity = cacheDefaultCapacity ∧
        (s'.plugin.cache.Inv ↔ ¬ plugin.OrphansAt key q)) ∨
      ∃ s', tryUpdate P rightFirst dflt throwAt key agentData ⟨result, plugin⟩ = .ok () s' ∧
        s'.plugin.InOrder ∧ ¬ ThrowsEarly P agentData throwAt ∧
        ∀ t, Translator.Plugin.dataToAnswer P agentData = .ok t → Client.IsPerLife t →
          ∀ q, throwAt = some q → ¬ plugin.PerformsLate key q := by
  by_cases he : ThrowsEarly P agentData throwAt
  · exact Or.inl ⟨he, tryUpdate_early he⟩
  · cases hd : Translator.Plugin.dataToAnswer P agentData with
    | error e => exact absurd (Or.inr (Or.inl ⟨e, hd⟩)) he
    | ok t =>
      rw [tryUpdate_late he hd]
      by_cases hlife : Client.IsPerLife t
      · rw [if_pos hlife]
        by_cases hq : ∃ q, throwAt = some q ∧ plugin.PerformsLate key q
        · obtain ⟨q, rfl, hq⟩ := hq
          obtain ⟨s', hs', hout, hcap, hinv⟩ := remember_throws (s := ⟨⟨t⟩, plugin⟩) h hq
          exact Or.inr (Or.inl ⟨t, q, s', rfl, hlife, rfl, hq, hs', hout, hcap, hinv⟩)
        · have hno : ∀ q, throwAt = some q → ¬ plugin.PerformsLate key q := fun q he hp =>
            hq ⟨q, he, hp⟩
          obtain ⟨b, cache, fresh, -, hrun, hin⟩ := remember_returns (s := ⟨⟨t⟩, plugin⟩) h hno
          exact Or.inr (Or.inr ⟨_, hrun, hin, he, fun _ _ _ => hno⟩)
      · rw [if_neg hlife]
        refine Or.inr (Or.inr ⟨_, rfl, h, he, fun t' ht' hlife' => ?_⟩)
        obtain rfl := Except.ok.inj ht'
        exact absurd hlife' hlife

/-! ### Calls -/

/-- Without a throw, `update` is the one of `AskUserPlugin.update`, but for identities in the
cache. -/
theorem updateM_returns (h : plugin.InOrder) (key : Key) (agentData : PluginData)
    (result : PolicyResult) :
    ∃ status result' plugin' fresh,
      plugin.update P key agentData result = some (status, result', plugin') ∧
      plugin.updateM P rightFirst dflt key agentData result none =
        some (status, result', ⟨{ plugin'.cache with fresh := fresh }⟩) := by
  unfold updateM
  cases hd : Translator.Plugin.dataToAnswer P agentData with
  | error e =>
    refine ⟨.ERROR, result, plugin, plugin.cache.fresh, by simp only [update, hd], ?_⟩
    rw [tryUpdate_early (Or.inr (Or.inl ⟨e, hd⟩))]
  | ok t =>
    have he : ¬ ThrowsEarly P agentData none := by simp [ThrowsEarly, hd]
    rw [tryUpdate_late he hd]
    by_cases hlife : Client.IsPerLife t
    · have hno : ∀ q, (none : Option PluginPoint) = some q → ¬ plugin.PerformsLate key q := by simp
      obtain ⟨b, cache, fresh, hupdate, hrun, -⟩ := remember_returns (s := ⟨⟨t⟩, plugin⟩) h hno
      refine ⟨_, _, _, fresh, update_perLife result hd hlife hupdate, ?_⟩
      rw [if_pos hlife, hrun]
    · refine ⟨_, _, _, plugin.cache.fresh, update_not_perLife result hd hlife, ?_⟩
      rw [if_neg hlife]

/-- `check` keeps the cache in order, whatever throws. -/
theorem checkM_inOrder (h : plugin.InOrder) (key : Key) (out : CheckOutput)
    (throwAt : Option PluginPoint) :
    ∃ status out' plugin', plugin.checkM P key out throwAt = some (status, out', plugin') ∧
      plugin'.InOrder := by
  unfold checkM tryCheck
  by_cases hcopy : throwAt = some .copyKey
  · exact ⟨.ERROR, out, plugin, by rw [failAt_throw hcopy], h⟩
  · rw [failAt_pass hcopy]
    obtain ⟨cache, hinv, hcap, -, hthrow | ⟨v, -, hrun⟩⟩ :=
      CacheM.getM_spec h.inv (throwAt.bind PluginPoint.inCache) key
    · exact ⟨.ERROR, out, ⟨cache⟩, by rw [bind_error (onCache_error hthrow)], hinv,
        hcap.trans h.capacity⟩
    · rw [bind_ok (onCache_ok hrun)]
      -- nothing that follows touches the cache
      have hin : InOrder ⟨cache⟩ := ⟨hinv, hcap.trans h.capacity⟩
      cases v with
      | none =>
        simp only
        by_cases htrans : throwAt = some .translate
        · exact ⟨.ERROR, _, ⟨cache⟩, by rw [failAt_throw htrans], hin⟩
        · rw [failAt_pass htrans, modify_bind]
          by_cases htype : throwAt = some .copyAgentType
          · exact ⟨.ERROR, _, ⟨cache⟩, by rw [failAt_throw htype], hin⟩
          · rw [failAt_pass htype, modify_bind]
            exact ⟨.ANSWER_NOTREADY, _, ⟨cache⟩, rfl, hin⟩
      | some r =>
        simp only
        rw [modify_bind]
        by_cases hdecision : throwAt = some .storeDecision
        · exact ⟨.ERROR, _, ⟨cache⟩, by rw [failAt_throw hdecision], hin⟩
        · rw [failAt_pass hdecision]
          by_cases hallow : r.policyType = Client.ALLOW_PER_LIFE
          · exact ⟨.ANSWER_READY, _, ⟨cache⟩, by rw [if_pos hallow]; rfl, hin⟩
          · exact ⟨.ANSWER_READY, _, ⟨cache⟩, by rw [if_neg hallow]; rfl, hin⟩

/-- A call that throws nowhere is defined, and keeps the cache in order. -/
theorem call_inOrder (h : plugin.InOrder) (x : Call) :
    ∃ plugin', plugin.call P x = some plugin' ∧ plugin'.InOrder := by
  cases x with
  | check key out =>
    rcases CapacityCache.get_spec h.inv key with ⟨-, hget⟩ | ⟨r, it, -, hn, hget⟩
    · exact ⟨plugin, by simp only [call, check, hget, Option.map_some], h⟩
    · refine ⟨_, ?_, ⟨h.inv.moveFront hn, h.capacity⟩⟩
      simp only [call, check, hget]
      split_ifs <;> rfl
  | update key agentData result =>
    simp only [call]
    cases hd : Translator.Plugin.dataToAnswer P agentData with
    | error e => exact ⟨plugin, by simp only [update, hd, Option.map_some], h⟩
    | ok t =>
      by_cases hlife : Client.IsPerLife t
      · obtain ⟨b, cache, hupdate, hinv, hcap, -⟩ :=
          CapacityCache.update_spec h.inv h.capacity_ne_zero key ⟨t⟩
        exact ⟨⟨cache⟩, by rw [update_perLife result hd hlife hupdate, Option.map_some], hinv,
          hcap.trans h.capacity⟩
      · exact ⟨plugin, by rw [update_not_perLife result hd hlife, Option.map_some], h⟩
  | invalidate => exact ⟨_, rfl, CapacityCache.inv_clear _, h.capacity⟩

theorem calls_inOrder (h : plugin.InOrder) (xs : List Call) :
    ∃ plugin', plugin.calls P xs = some plugin' ∧ plugin'.InOrder := by
  induction xs generalizing plugin with
  | nil => exact ⟨plugin, rfl, h⟩
  | cons x xs ih =>
    obtain ⟨plugin₁, hcall, h₁⟩ := call_inOrder h x
    obtain ⟨plugin₂, hcalls, h₂⟩ := ih h₁
    exact ⟨plugin₂, by rw [calls, hcall, Option.bind_some, hcalls], h₂⟩

/-! ### Runs with calls that throw -/

variable (P) in
/-- The call does not leave a key orphaned. -/
def KeepsCache : FallibleCall → AskUserPlugin → Prop
  | .update key agentData _ throwAt, plugin =>
    ∀ t, Translator.Plugin.dataToAnswer P agentData = .ok t → Client.IsPerLife t →
      ∀ q, throwAt = some q → ¬ plugin.OrphansAt key q
  | _, _ => True

theorem keepsCache_of_early (he : ThrowsEarly P agentData throwAt) (result : PolicyResult) :
    KeepsCache P (.update key agentData result throwAt) plugin := by
  rintro t hd - q rfl horphans
  exact not_performsLate_of_early he hd (orphansAt_performsLate horphans)

theorem keepsCache_iff {q : PluginPoint}
    (hd : Translator.Plugin.dataToAnswer P agentData = .ok t) (hlife : Client.IsPerLife t)
    (result : PolicyResult) :
    KeepsCache P (.update key agentData result (some q)) plugin ↔ ¬ plugin.OrphansAt key q := by
  constructor
  · intro hkeeps
    exact hkeeps t hd hlife q rfl
  · rintro hno t' - - q' hq'
    obtain rfl := Option.some.inj hq'
    exact hno

/-- **One call**, whatever throws in it, is defined, and keeps the cache in order exactly if it
leaves no key orphaned. -/
theorem fallibleCall_inOrder (h : plugin.InOrder) (x : FallibleCall) :
    ∃ plugin', fallibleCall P rightFirst dflt x plugin = some plugin' ∧
      (plugin'.InOrder ↔ KeepsCache P x plugin) := by
  cases x with
  | check key out throwAt =>
    obtain ⟨status, out', plugin', hcheck, h'⟩ := checkM_inOrder (P := P) h key out throwAt
    exact ⟨plugin', by rw [fallibleCall, hcheck, Option.map_some], iff_of_true h' trivial⟩
  | invalidate =>
    exact ⟨_, rfl, iff_of_true ⟨CapacityCache.inv_clear _, h.capacity⟩ trivial⟩
  | update key agentData result throwAt =>
    simp only [fallibleCall, updateM]
    rcases tryUpdate_cases P rightFirst dflt h key agentData result throwAt with
      ⟨he, hrun⟩ | ⟨t, q, s', hd, hlife, rfl, hq, hrun, -, hcap, hinv⟩ | ⟨s', hrun, hin, -, hno⟩
    · exact ⟨plugin, by rw [hrun, Option.map_some], iff_of_true h (keepsCache_of_early he result)⟩
    · refine ⟨s'.plugin, by rw [hrun, Option.map_some], ?_⟩
      rw [keepsCache_iff hd hlife, ← hinv]
      exact ⟨InOrder.inv, fun hinv' => ⟨hinv', hcap⟩⟩
    · refine ⟨s'.plugin, by rw [hrun, Option.map_some], iff_of_true hin ?_⟩
      intro t hd hlife q hq horphans
      exact hno t hd hlife q hq (orphansAt_performsLate horphans)

/-- The cache is in order in every state of a run that orphans no key. -/
theorem inOrder_of_reachable
    (h : Run.Reachable (fallibleCall P rightFirst dflt) (KeepsCache P) new plugin) :
    plugin.InOrder := by
  refine h.invariant (P := InOrder) inOrder_new fun x plugin plugin' hin hkeeps hcall => ?_
  obtain ⟨plugin'', hcall', hiff⟩ := fallibleCall_inOrder hin x
  obtain rfl := Option.some.inj (hcall'.symm.trans hcall)
  exact hiff.2 hkeeps

/-! ### What is left after a throw -/

variable (P rightFirst dflt) in
/-- Whatever is thrown, `update` reports an error and leaves no per-life type in `result`, and the
cache is in order, so that every later call is defined. -/
def UsableAfter (plugin : AskUserPlugin) (key : Key) (agentData : PluginData)
    (result : PolicyResult) (throwAt : Option PluginPoint) : Prop :=
  ∀ e s', tryUpdate P rightFirst dflt throwAt key agentData ⟨result, plugin⟩ = .error e s' →
    plugin.updateM P rightFirst dflt key agentData result throwAt =
        some (.ERROR, s'.out, s'.plugin) ∧
      ¬ Client.IsPerLife s'.out.policyType ∧ s'.plugin.cache.Inv ∧
      ∀ xs : List Call, ∃ plugin', s'.plugin.calls P xs = some plugin'

variable (P) in
/-- Nothing is thrown once a per-life answer is in `result`, and what is thrown before finds no
per-life type there. -/
def Harmless (plugin : AskUserPlugin) (key : Key) (agentData : PluginData)
    (result : PolicyResult) (throwAt : Option PluginPoint) : Prop :=
  (ThrowsEarly P agentData throwAt → ¬ Client.IsPerLife result.policyType) ∧
    ∀ t, Translator.Plugin.dataToAnswer P agentData = .ok t → Client.IsPerLife t →
      ∀ q, throwAt = some q → ¬ plugin.PerformsLate key q

/-- **A failed update.** In every state of a run whose calls throw wherever they do, but orphan no
key: the plugin is usable after an update that throws if and only if nothing throws once a per-life
answer is in `result`, and `result` holds none before. Whatever throws, the error is reported, and
the cache is in order exactly if this update orphans no key either. -/
theorem usableAfter_iff
    (h : Run.Reachable (fallibleCall P rightFirst dflt) (KeepsCache P) new plugin) (key : Key)
    (agentData : PluginData) (result : PolicyResult) (throwAt : Option PluginPoint) :
    (UsableAfter P rightFirst dflt plugin key agentData result throwAt ↔
        Harmless P plugin key agentData result throwAt) ∧
      ∀ e s', tryUpdate P rightFirst dflt throwAt key agentData ⟨result, plugin⟩ = .error e s' →
        plugin.updateM P rightFirst dflt key agentData result throwAt =
            some (.ERROR, s'.out, s'.plugin) ∧
          (s'.plugin.cache.Inv ↔ KeepsCache P (.update key agentData result throwAt) plugin) := by
  have hin := inOrder_of_reachable h
  simp only [UsableAfter, Harmless, updateM]
  rcases tryUpdate_cases P rightFirst dflt hin key agentData result throwAt with
    ⟨he, hrun⟩ | ⟨t, q, s', hd, hlife, rfl, hq, hrun, hout, hcap, hinv⟩ | ⟨s', hrun, -, he, hno⟩
  · -- nothing is stored yet: `result` is as the caller has passed it
    refine ⟨⟨fun huse => ⟨fun _ => (huse _ _ hrun).2.1, ?_⟩, ?_⟩, ?_⟩
    · rintro t hd - q rfl
      exact not_performsLate_of_early he hd
    · rintro ⟨hearly, -⟩ e s' hs'
      obtain ⟨-, rfl⟩ := EStateM.Result.error.inj (hrun.symm.trans hs')
      exact ⟨by rw [hrun], hearly he, hin.inv, fun xs =>
        (calls_inOrder hin xs).imp fun _ => And.left⟩
    · intro e s' hs'
      obtain ⟨-, rfl⟩ := EStateM.Result.error.inj (hrun.symm.trans hs')
      exact ⟨by rw [hrun], iff_of_true hin.inv (keepsCache_of_early he result)⟩
  · -- the per-life answer is in `result`, and stays there
    refine ⟨iff_of_false (fun huse => ?_) (fun hharmless => hharmless.2 t hd hlife q rfl hq), ?_⟩
    · have hleft := (huse _ _ hrun).2.1
      rw [hout] at hleft
      exact hleft hlife
    · intro e s'' hs''
      obtain ⟨-, rfl⟩ := EStateM.Result.error.inj (hrun.symm.trans hs'')
      exact ⟨by rw [hrun], by rw [hinv, keepsCache_iff hd hlife]⟩
  · -- nothing throws
    have hno' : ∀ e s'', tryUpdate P rightFirst dflt throwAt key agentData ⟨result, plugin⟩ ≠
        .error e s'' := by simp [hrun]
    exact ⟨iff_of_true (fun e s'' hs'' => absurd hs'' (hno' e s''))
      ⟨fun hearly => absurd hearly he, hno⟩, fun e s'' hs'' => absurd hs'' (hno' e s'')⟩

/-- The data of a permanent grant. -/
def grant : PluginData := [byte '1', byte '3']

/-- A new plugin whose hasher has run out of memory in an update refuses an empty answer. -/
theorem usableAfter_hash : ∃ plugin,
    fallibleCall .cynara true ⟨0⟩ (.update ([], [], []) grant ⟨0⟩ (some (.cache .hash))) new =
        some plugin ∧
      UsableAfter .cynara true ⟨0⟩ plugin ([], [], []) [] ⟨0⟩ none := by
  have hkeeps : KeepsCache .cynara (.update ([], [], []) grant ⟨0⟩ (some (.cache .hash))) new := by
    rintro t - - q hq ⟨p, rfl, -, hp⟩
    obtain rfl := PluginPoint.cache.inj (Option.some.inj hq)
    simp at hp
  refine ⟨_, rfl, ((usableAfter_iff (.step _ .start hkeeps rfl) _ _ _ _).1).2 ⟨fun _ => ?_, ?_⟩⟩
  · decide
  · rintro t - - q ⟨⟩

/-- The updates that fill the cache and evict once. -/
def fillUp : List Call :=
  (List.range 101).map fun i => .update ([UInt8.ofNat i], [], []) grant ⟨0⟩

/-- A new plugin is given a permanent grant, and there is no memory for the map node: the result is
left at `ALLOW_PER_LIFE`, the key is orphaned, and when the cache is full its eviction is
undefined. -/
theorem not_usableAfter_mapNode :
    ¬ UsableAfter .cynara true ⟨0⟩ new ([], [], []) grant ⟨0⟩ (some (.cache .mapNode)) ∧
      ∃ plugin, new.updateM .cynara true ⟨0⟩ ([], [], []) grant ⟨0⟩ (some (.cache .mapNode)) =
          some (.ERROR, ⟨Client.ALLOW_PER_LIFE⟩, plugin) ∧
        ¬ plugin.cache.Inv ∧ plugin.calls .cynara fillUp = none := by
  obtain ⟨s', hrun, hout, hcap, hundefined⟩ : ∃ s', tryUpdate .cynara true ⟨0⟩
      (some (.cache .mapNode)) ([], [], []) grant ⟨⟨0⟩, new⟩ = .error .exception s' ∧
      s'.out = ⟨Client.ALLOW_PER_LIFE⟩ ∧ s'.plugin.cache.capacity = cacheDefaultCapacity ∧
      (s'.plugin.calls .cynara fillUp).isNone = true :=
    ⟨_, rfl, rfl, rfl, by decide +kernel⟩
  rw [Option.isNone_iff_eq_none] at hundefined
  have hinv : ¬ s'.plugin.cache.Inv := by
    intro hinv
    obtain ⟨plugin', hcalls, -⟩ := calls_inOrder (P := .cynara) ⟨hinv, hcap⟩ fillUp
    rw [hundefined] at hcalls
    exact absurd hcalls (by simp)
  refine ⟨fun huse => ?_, s'.plugin, by simp only [updateM, hrun, hout], hinv, hundefined⟩
  have hleft := (huse _ _ hrun).2.1
  rw [hout] at hleft
  exact hleft (by decide)

end AskUserPlugin
end AskUser
