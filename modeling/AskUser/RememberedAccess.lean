import AskUser.Access

/-!
# What is remembered was said

The service plugin answers from its cache without asking the agent again. The cynara daemon gives it
the responses of the agent, each for the client, the user and the privilege of the request that it
is about (`Routed`). So a remembered decision goes back to a dialog that `createUI` made from these
three, in which the user chose one of the two buttons that hold for life (`remembered_said`).
-/

namespace AskUser
open Agent ByteText RequestType SupportedTypes Agent.UIResponseType
open Agent.AskUINotificationBackend (response)

variable {P : PredefinedPolicyType} {s : Agent} {ret : ℤ} {button : Int32}

/-- The data of an update come from a response about a request with the same three strings. -/
def Routed (s : Agent) : AskUserPlugin.Call → Prop
  | .update key data _ => ∃ p id x,
    .handed ⟨RT_Action, id, Translator.Plugin.requestToData key.1 key.2.1 key.2.2⟩ ∈
      s.store.story p ∧ .sent x ∈ s.store.story p ∧ x.requestType = RT_Action ∧ x.data = data
  | .check _ _ | .invalidate => True

/-- The two buttons that hold for life. -/
theorem button_of_perLife (h : Client.IsPerLife (decision P (response ret button))) :
    ret = NOTIFICATION_ERROR_NONE ∧
      (button = 6 ∧ decision P (response ret button) = Client.ALLOW_PER_LIFE ∨
        button = 3 ∧ decision P (response ret button) = Client.DENY_PER_LIFE) := by
  rcases response_cases ret button with ⟨hret, hb⟩ | ⟨-, ht⟩
  · refine ⟨hret, ?_⟩
    simp only [buttons, List.mem_cons, Prod.mk.injEq, List.not_mem_nil, or_false] at hb
    have other {a : PolicyType} (ha : decision P (response ret button) = a)
        (hnot : ¬ Client.IsPerLife a) : False := hnot (ha ▸ h)
    rcases hb with ⟨rfl, ht⟩ | ⟨rfl, ht⟩ | ⟨rfl, ht⟩ | ⟨rfl, ht⟩ | ⟨rfl, ht⟩ | ⟨rfl, ht⟩
    · exact (other (a := Client.DENY_ONCE) (congrArg (decision P) ht) (by decide)).elim
    · exact (other (a := Client.DENY_PER_SESSION) (congrArg (decision P) ht) (by decide)).elim
    · exact Or.inr ⟨rfl, congrArg (decision P) ht⟩
    · exact (other (a := Client.ALLOW_ONCE) (congrArg (decision P) ht) (by decide)).elim
    · exact (other (a := Client.ALLOW_PER_SESSION) (congrArg (decision P) ht) (by decide)).elim
    · exact Or.inl ⟨rfl, congrArg (decision P) ht⟩
  · have hdeny : decision P (response ret button) = P.DENY := by
      rcases ht with ht | ht <;> rw [ht] <;> rfl
    rw [hdeny] at h
    exact absurd h (AskUserPlugin.not_perLife_of_reserved P.deny_reserved)

/-- **What is remembered was said.** In any run of the agent that starts no dialog for the id of a
queued response, and after any calls of the plugin whose updates carry responses of this agent: if
`check` is ready, then the user has said so for life, in a dialog for which `createUI` was called
with the three strings that are checked. The screen shows the whole question about them if it
fits. -/
theorem remembered_said (P : PredefinedPolicyType) (C : LibcLimits) (E : UIPtr → Calls) (L : Limits)
    (ls : List Agent.Label) (s : Agent)
    (hexec : Run.exec (Agent.step L) (Run.both (NoStaleResponse L) (Rendered C E L)) ls Agent.new =
      some s)
    (xs : List AskUserPlugin.Call) (hrouted : ∀ x ∈ xs, Routed s x) :
    ∃ plugin, AskUserPlugin.new.calls P xs = some plugin ∧
      ∀ (client user privilege : Bytes) out out' plugin',
        client.length ≤ L.maxSize → user.length ≤ L.maxSize → privilege.length ≤ L.maxSize →
        plugin.check P (client, user, privilege) out = some (.ANSWER_READY, out', plugin') →
        ∃ id p u button,
          Said C E ls s id p ⟨client, user, privilege⟩ u NOTIFICATION_ERROR_NONE button ∧
            (button = 6 ∧ out'.result = ⟨P.ALLOW⟩ ∨ button = 3 ∧ out'.result = ⟨P.DENY⟩) := by
  obtain ⟨plugin, hcalls, hrem⟩ := AskUserPlugin.calls_remembers
    (P := P) AskUserPlugin.remembers_new xs
  refine ⟨plugin, hcalls, fun client user privilege out out' plugin' hclient huser hprivilege
    hcheck => ?_⟩
  have hr : Agent.Reachable L Run.always s := (Run.Reachable.of_exec .start hexec).mono
    fun _ _ (_ : Run.both (NoStaleResponse L) (Rendered C E L) _ _) => trivial
  -- the entry of the cache
  obtain ⟨status, out₁, usage, hcheck', -, hcase⟩ :=
    AskUserPlugin.check_spec hrem (client, user, privilege) out
  rw [hcheck, Option.some.injEq, Prod.mk.injEq, Prod.mk.injEq] at hcheck'
  obtain ⟨rfl, rfl, -⟩ := hcheck'
  obtain ⟨hmiss, -⟩ | ⟨entry, it, -, hentry, hresult⟩ := hcase
  · simp at hmiss
  -- the update that it comes from, and the response that this was about
  obtain ⟨recent, data, before, older, hsplit, -, hdecoded, hlife, -⟩ :=
    AskUserPlugin.lastPerLife_eq_some (hrem.entry hentry)
  have hmem : .update (client, user, privilege) data before ∈ xs := by
    have : .update (client, user, privilege) data before ∈ xs.reverse ++ [] := by
      rw [hsplit]
      exact List.mem_append_right _ List.mem_cons_self
    simpa using this
  obtain ⟨p, id, x, hhanded, hsent, haction, rfl⟩ := hrouted _ hmem
  obtain ⟨r, -, rfl | ⟨q, -, rfl⟩ | ⟨k, rfl⟩⟩ := sent_shape hr hsent
  · -- an error is not remembered
    have hdeny : Translator.Plugin.dataToAnswer P (startFailure r).data = .ok P.DENY :=
      Translator.dataToAnswer_errMsg P 0 List.mem_cons_self
    rw [hdeny, Except.ok.injEq] at hdecoded
    rw [← hdecoded] at hlife
    exact absurd hlife (AskUserPlugin.not_perLife_of_reserved P.deny_reserved)
  · obtain ⟨ret, button, htype, hsaid⟩ := said hexec (d := ⟨client, user, privilege⟩) hclient huser
      hprivilege hhanded hsent
    have hdata : (answer r q).data = pluginData (response ret button) := congrArg pluginData htype
    rw [hdata, dataToAnswer_pluginData, Except.ok.injEq] at hdecoded
    rw [← hdecoded] at hlife hresult
    obtain ⟨rfl, ⟨hbutton, hdecision⟩ | ⟨hbutton, hdecision⟩⟩ := button_of_perLife hlife
    · refine ⟨id, p, q.postedBy, button, hsaid, Or.inl ⟨hbutton, ?_⟩⟩
      rw [hresult, hdecision, if_pos rfl]
    · refine ⟨id, p, q.postedBy, button, hsaid, Or.inr ⟨hbutton, ?_⟩⟩
      rw [hresult, hdecision, if_neg (by decide)]
  · simp [cancellation] at haction

/-- The user 5001 lets an application use the camera for life, with the button 6. -/
theorem remembered_said_camera : ∃ (ls : List Agent.Label) (s : Agent) (id : RequestId)
    (p : RequestPtr) (u : UIPtr) (button : Int32),
      Said .glibc (fun _ => Calls.en) ls s id p ⟨text "app", text "5001", text "camera"⟩ u
        NOTIFICATION_ERROR_NONE button ∧ button = 6 := by
  let x := answer ⟨RT_Action, 1, []⟩ ⟨1, .URT_YES_LIFE, 0⟩
  let key : Key := (text "app", text "5001", text "camera")
  let xs : List AskUserPlugin.Call := [.update key x.data ⟨0⟩]
  let out : CheckOutput := ⟨⟨0⟩, [], []⟩
  obtain ⟨s, hexec, hst⟩ : ∃ s,
      Run.exec (Agent.step .lp64) (Run.both (NoStaleResponse .lp64)
        (Rendered .glibc (fun _ => Calls.en) .lp64))
        [tick, .talker (.initialized true), .talker (.received .ACTION 1
          (Translator.Plugin.requestToData (text "app") (text "5001") (text "camera"))), tick, tick,
          tick, tick, .post 0 0 6, tick, tick] Agent.new = some s ∧
      s.store.story 0 = [.handed ⟨RT_Action, 1, Translator.Plugin.requestToData (text "app")
        (text "5001") (text "camera")⟩, .popped, .recorded, .sent x, .deleted] :=
    Option.map_eq_some_iff.1 (by decide +kernel)
  have hrouted : ∀ y ∈ xs, Routed s y := fun y hy => by
    obtain rfl := List.mem_singleton.1 hy
    exact ⟨0, 1, x, by simp [hst, key], by simp [hst], rfl, rfl⟩
  obtain ⟨plugin, hcalls, hlaw⟩ := remembered_said .cynara .glibc (fun _ => Calls.en) .lp64 _ s
    hexec xs hrouted
  obtain ⟨⟨status, out', plugin'⟩, hcheck, hready⟩ : ∃ r,
      plugin.check .cynara key out = some r ∧
        (r.1, r.2.1) =
          (.ANSWER_READY, { out with result := ⟨PredefinedPolicyType.cynara.ALLOW⟩ }) := by
    have hrun : ((AskUserPlugin.new.calls .cynara xs).bind fun plugin =>
        (plugin.check .cynara key out).map fun r => (r.1, r.2.1)) =
      some (.ANSWER_READY, { out with result := ⟨PredefinedPolicyType.cynara.ALLOW⟩ }) := by
      decide +kernel
    rw [hcalls, Option.bind_some] at hrun
    exact Option.map_eq_some_iff.1 hrun
  obtain ⟨rfl, rfl⟩ := Prod.mk.inj hready
  obtain ⟨id, p, u, button, hsaid, ⟨hbutton, -⟩ | ⟨-, hdeny⟩⟩ := hlaw _ _ _ out _ plugin'
    (by decide) (by decide) (by decide) hcheck
  · exact ⟨_, s, id, p, u, button, hsaid, hbutton⟩
  · exact absurd hdeny (by decide)

end AskUser
