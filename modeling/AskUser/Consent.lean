import AskUser.AgentInvariant
import AskUser.ClientPlugin

/-!
# From the button to the access

Five tables lie between the button that the user presses and the access of the client: the thread
of the dialog makes a `UIResponseType` of it, the agent a policy type and a text, the service plugin
a result, and the client plugin an answer to the caller. `consent` is the law that they obey
together.

* `response_cases` is the first of them, on every return code and every `int`;
* `dataToAnswer_pluginData` is the way through the text;
* `ConsentLaw` says when the answer lets the client in, and when it lasts; `ConsentStep` adds what
  the service plugin keeps of it. The answer to every outcome of a dialog obeys them (`consented`).
-/

namespace AskUser
open ByteText SupportedTypes Agent.UIResponseType
open Agent (NOTIFICATION_ERROR_NONE UIResponseType pluginData UIResponseToPolicyType)
open Agent.AskUINotificationBackend (response)

theorem toUInt32_toNat_inj {a b : Int32} (h : a.toUInt32.toNat = b.toUInt32.toNat) : a = b := by
  cases a
  cases b
  congr
  exact UInt32.toNat_inj.1 h

/-- The six buttons, in the order of the dialog. -/
def buttons : List (Int32 × UIResponseType) :=
  [(1, URT_NO_ONCE), (2, URT_NO_SESSION), (3, URT_NO_LIFE), (4, URT_YES_ONCE), (5, URT_YES_SESSION),
    (6, URT_YES_LIFE)]

/-- A button gives its own response; everything else an error or a timeout. -/
theorem response_cases (ret : ℤ) (b : Int32) :
    (ret = NOTIFICATION_ERROR_NONE ∧ (b, response ret b) ∈ buttons) ∨
      ((ret ≠ NOTIFICATION_ERROR_NONE ∨ b ∉ buttons.map Prod.fst) ∧
        (response ret b = URT_ERROR ∨ response ret b = URT_TIMEOUT)) := by
  by_cases hret : ret = NOTIFICATION_ERROR_NONE
  · by_cases h0 : b = 0
    · subst h0
      exact Or.inr ⟨Or.inr (by decide), Or.inr (by simp [response, hret])⟩
    · by_cases h6 : b.toUInt32.toNat > 6
      · refine Or.inr ⟨Or.inr fun hb => ?_, Or.inl (by simp [response, hret, h0, h6])⟩
        have hsmall : ∀ e ∈ buttons, e.1.toUInt32.toNat ≤ 6 := by decide
        obtain ⟨e, he, rfl⟩ := List.mem_map.1 hb
        exact absurd (hsmall e he) (by omega)
      · have hn0 : b.toUInt32.toNat ≠ 0 := fun hn => h0 (toUInt32_toNat_inj hn)
        have hb : b = 1 ∨ b = 2 ∨ b = 3 ∨ b = 4 ∨ b = 5 ∨ b = 6 := by
          have hn : b.toUInt32.toNat = 1 ∨ b.toUInt32.toNat = 2 ∨ b.toUInt32.toNat = 3 ∨
            b.toUInt32.toNat = 4 ∨ b.toUInt32.toNat = 5 ∨ b.toUInt32.toNat = 6 := by omega
          exact hn.imp toUInt32_toNat_inj <| Or.imp toUInt32_toNat_inj <|
            Or.imp toUInt32_toNat_inj <| Or.imp toUInt32_toNat_inj <|
              Or.imp toUInt32_toNat_inj toUInt32_toNat_inj
        refine Or.inl ⟨hret, ?_⟩
        subst hret
        rcases hb with rfl | rfl | rfl | rfl | rfl | rfl <;> decide
  · exact Or.inr ⟨Or.inl hret, Or.inl (by simp [response, hret])⟩

/-- The policy type that the service plugin reads. -/
def decision (P : PredefinedPolicyType) (t : UIResponseType) : PolicyType :=
  if t = URT_ERROR ∨ t = URT_TIMEOUT then P.DENY else UIResponseToPolicyType t

theorem dataToAnswer_pluginData (P : PredefinedPolicyType) (t : UIResponseType) :
    Translator.Plugin.dataToAnswer P (pluginData t) = .ok (decision P t) := by
  by_cases he : t = URT_ERROR
  · subst he
    exact Translator.dataToAnswer_errMsg P 0 (List.mem_cons_self)
  · by_cases ht : t = URT_TIMEOUT
    · subst ht
      exact Translator.dataToAnswer_errMsg P 0 (List.mem_cons_of_mem _ List.mem_cons_self)
    · simp only [pluginData, decision, he, ht, or_self, if_false]
      exact Translator.dataToAnswer_answerToData P _

/-! ### The two plugins -/

theorem toResult_iff (A : CynaraApi) (session : ClientSession) (t : PolicyType) :
    ClientPlugin.toResult A session ⟨t⟩ = A.ACCESS_ALLOWED ↔
      t = Client.ALLOW_ONCE ∨ t = Client.ALLOW_PER_SESSION := by
  unfold ClientPlugin.toResult
  split_ifs with ht
  · exact iff_of_true rfl ht
  · exact iff_of_false A.allowed_ne_denied.symm ht

/-- What the service plugin makes of the agent's answer, and what it says when it is asked again. -/
theorem update_decision {P : PredefinedPolicyType} {plugin : AskUserPlugin}
    {history : List AskUserPlugin.Call} (h : AskUserPlugin.Remembers P plugin history) (key : Key)
    (t : UIResponseType) (before : PolicyResult) :
    ∃ result plugin', plugin.update P key (pluginData t) before =
        some (.SUCCESS, result, plugin') ∧
      ((Client.IsPerLife (decision P t) ∧
          result = ⟨if decision P t = Client.ALLOW_PER_LIFE then P.ALLOW else P.DENY⟩ ∧
          ∀ out, ∃ out' plugin'', plugin'.check P key out =
            some (.ANSWER_READY, out', plugin'') ∧ out'.result = result) ∨
        (¬ Client.IsPerLife (decision P t) ∧ result = ⟨decision P t⟩ ∧ plugin' = plugin)) := by
  obtain ⟨status, result, plugin', hupdate, hrem, hcase⟩ :=
    AskUserPlugin.update_spec h key (pluginData t) before
  rcases hcase with ⟨e, he, -⟩ | ⟨t', ht', rfl, hcase⟩
  · rw [dataToAnswer_pluginData] at he
    exact absurd he (by simp)
  · obtain rfl : decision P t = t' := by
      rw [dataToAnswer_pluginData] at ht'
      exact Except.ok.inj ht'
    refine ⟨result, plugin', hupdate, ?_⟩
    rcases hcase with ⟨hlife, hres, it, hk⟩ | ⟨hlife, hres, hp⟩
    · refine Or.inl ⟨hlife, hres, fun out => ?_⟩
      obtain ⟨status, out', usage, hcheck, -, hmiss | hhit⟩ := AskUserPlugin.check_spec hrem key out
      · rw [hk] at hmiss
        exact absurd hmiss.2.1 (by simp)
      · obtain ⟨r, it', rfl, hk', hout⟩ := hhit
        rw [hk, Option.some.injEq, Prod.mk.injEq] at hk'
        obtain ⟨rfl, -⟩ := hk'
        exact ⟨out', _, hcheck, hout.trans hres.symm⟩
    · exact Or.inr ⟨hlife, hres, hp⟩

/-- What the access of a client comes to, for the outcome of a dialog. -/
structure ConsentLaw (P : PredefinedPolicyType) (A : CynaraApi) (ret : ℤ) (button : Int32)
    (result : PolicyResult) : Prop where
  granted : ∀ session, (result = ⟨P.ALLOW⟩ ∨
    ClientPlugin.toResult A session result = A.ACCESS_ALLOWED) ↔
      ret = NOTIFICATION_ERROR_NONE ∧ button ∈ [4, 5, 6]
  cacheable : ∀ session, ClientPlugin.isCacheable session result ↔
    ret = NOTIFICATION_ERROR_NONE ∧ button ∈ [2, 5]
  usable : ∀ session prevSession, ClientPlugin.isCacheable session result →
    ((ClientPlugin.isUsable session prevSession result).1 ↔ session = prevSession)

/-- The law, for a result that the client plugin sees as it is. -/
theorem consentLaw_of_policyType (P : PredefinedPolicyType) (A : CynaraApi) {ret : ℤ}
    {button : Int32} {t : PolicyType}
    (hgranted : t = P.ALLOW ∨ t = Client.ALLOW_ONCE ∨ t = Client.ALLOW_PER_SESSION ↔
      ret = NOTIFICATION_ERROR_NONE ∧ button ∈ [4, 5, 6])
    (hcacheable : t = Client.ALLOW_PER_SESSION ∨ t = Client.DENY_PER_SESSION ↔
      ret = NOTIFICATION_ERROR_NONE ∧ button ∈ [2, 5]) :
    ConsentLaw P A ret button ⟨t⟩ where
  granted := by
    intro session
    rw [toResult_iff, ← hgranted, PolicyResult.mk.injEq]
  cacheable := by
    intro session
    simpa [ClientPlugin.isCacheable] using hcacheable
  usable := by
    intro session prevSession hc
    have ht : t = Client.ALLOW_PER_SESSION ∨ t = Client.DENY_PER_SESSION := by
      simpa [ClientPlugin.isCacheable] using hc
    simp [ClientPlugin.isUsable, ht]

section Law

variable {P : PredefinedPolicyType} {A : CynaraApi} {ret : ℤ} {button : Int32}

/-- The law for a policy type of the client. -/
theorem consentLaw_of_mem_types {t : PolicyType} (ht : t ∈ Client.types)
    (hret : ret = NOTIFICATION_ERROR_NONE)
    (hgranted : t = Client.ALLOW_ONCE ∨ t = Client.ALLOW_PER_SESSION ↔ button ∈ [4, 5, 6])
    (hcacheable : t = Client.ALLOW_PER_SESSION ∨ t = Client.DENY_PER_SESSION ↔ button ∈ [2, 5]) :
    ConsentLaw P A ret button ⟨t⟩ := by
  have hallow : t ≠ P.ALLOW := fun he => P.allow_reserved (he ▸ ht)
  exact consentLaw_of_policyType P A (by simpa only [hallow, false_or, hret, true_and])
    (by simpa only [hret, true_and])

theorem consentLaw_allow (hret : ret = NOTIFICATION_ERROR_NONE) :
    ConsentLaw P A ret 6 ⟨P.ALLOW⟩ := by
  refine consentLaw_of_policyType P A (iff_of_true (Or.inl rfl) ⟨hret, by decide⟩)
    (iff_of_false ?_ fun h => absurd h.2 (by decide))
  rintro (h | h) <;> exact P.allow_reserved (h ▸ by decide)

theorem consentLaw_deny (h : ¬ (ret = NOTIFICATION_ERROR_NONE ∧ button ∈ [2, 4, 5, 6])) :
    ConsentLaw P A ret button ⟨P.DENY⟩ := by
  refine consentLaw_of_policyType P A (iff_of_false ?_ ?_) (iff_of_false ?_ ?_)
  · rintro (hd | hd | hd)
    · exact P.allow_ne_deny hd.symm
    · exact P.deny_reserved (hd ▸ by decide)
    · exact P.deny_reserved (hd ▸ by decide)
  · rintro ⟨hret, hb⟩
    exact h ⟨hret, List.mem_cons_of_mem _ hb⟩
  · rintro (hd | hd) <;> exact P.deny_reserved (hd ▸ by decide)
  · rintro ⟨hret, hb⟩
    refine h ⟨hret, ?_⟩
    simp only [List.mem_cons, List.not_mem_nil, or_false] at hb ⊢
    rcases hb with hb | hb <;> simp [hb]

end Law

/-- What the update of a triple with the outcome of a dialog leads to: the client's access, and what
the service plugin says when it is asked again. -/
structure ConsentStep (P : PredefinedPolicyType) (A : CynaraApi) (plugin plugin' : AskUserPlugin)
    (key : Key) (ret : ℤ) (button : Int32) (result : PolicyResult) : Prop where
  law : ConsentLaw P A ret button result
  life : ret = NOTIFICATION_ERROR_NONE ∧ button ∈ [3, 6] → ∀ out, ∃ out' plugin'',
    plugin'.check P key out = some (.ANSWER_READY, out', plugin'') ∧ out'.result = result
  other : ¬ (ret = NOTIFICATION_ERROR_NONE ∧ button ∈ [3, 6]) → plugin' = plugin

/-- The data are understood as the outcome of a dialog, for every triple. -/
def Consented (P : PredefinedPolicyType) (A : CynaraApi) (plugin : AskUserPlugin) (ret : ℤ)
    (button : Int32) (data : PluginData) : Prop :=
  ∀ key before, ∃ result plugin', plugin.update P key data before =
    some (.SUCCESS, result, plugin') ∧ ConsentStep P A plugin plugin' key ret button result

theorem consented {P : PredefinedPolicyType} (A : CynaraApi) {plugin : AskUserPlugin}
    {history : List AskUserPlugin.Call} (h : AskUserPlugin.Remembers P plugin history) (ret : ℤ)
    (button : Int32) : Consented P A plugin ret button (pluginData (response ret button)) := by
  intro key before
  obtain ⟨result, plugin', hupdate, hcase⟩ := update_decision h key (response ret button) before
  refine ⟨result, plugin', hupdate, ?_⟩
  -- the answers that only the service plugin reads, and the others
  have life : ∀ {d : PolicyType}, decision P (response ret button) = d → Client.IsPerLife d →
      ret = NOTIFICATION_ERROR_NONE ∧ button ∈ [3, 6] →
      ConsentLaw P A ret button ⟨if d = Client.ALLOW_PER_LIFE then P.ALLOW else P.DENY⟩ →
      ConsentStep P A plugin plugin' key ret button result :=
    fun hd hlife hb hlaw => by
      subst hd
      rcases hcase with ⟨-, hres, hcheck⟩ | ⟨hno, -⟩
      · exact ⟨hres ▸ hlaw, fun _ => hcheck, fun hnb => absurd hb hnb⟩
      · exact absurd hlife hno
  have other : ∀ {d : PolicyType}, decision P (response ret button) = d → ¬ Client.IsPerLife d →
      ¬ (ret = NOTIFICATION_ERROR_NONE ∧ button ∈ [3, 6]) → ConsentLaw P A ret button ⟨d⟩ →
      ConsentStep P A plugin plugin' key ret button result :=
    fun hd hlife hb hlaw => by
      subst hd
      rcases hcase with ⟨hyes, -⟩ | ⟨-, hres, hp⟩
      · exact absurd hyes hlife
      · exact ⟨hres ▸ hlaw, fun hyes => absurd hyes hb, fun _ => hp⟩
  rcases response_cases ret button with ⟨hret, hb⟩ | ⟨hb, ht⟩
  · simp only [buttons, List.mem_cons, Prod.mk.injEq, List.not_mem_nil, or_false] at hb
    rcases hb with ⟨rfl, ht⟩ | ⟨rfl, ht⟩ | ⟨rfl, ht⟩ | ⟨rfl, ht⟩ | ⟨rfl, ht⟩ | ⟨rfl, ht⟩
    · exact other (by rw [ht]; rfl) (by decide) (fun hy => absurd hy.2 (by decide))
        (consentLaw_of_mem_types (t := Client.DENY_ONCE) (by decide) hret (by decide) (by decide))
    · exact other (by rw [ht]; rfl) (by decide) (fun hy => absurd hy.2 (by decide))
        (consentLaw_of_mem_types (t := Client.DENY_PER_SESSION) (by decide) hret (by decide)
          (by decide))
    · exact life (d := Client.DENY_PER_LIFE) (by rw [ht]; rfl) (by decide) ⟨hret, by decide⟩
        (consentLaw_deny fun hy => absurd hy.2 (by decide))
    · exact other (by rw [ht]; rfl) (by decide) (fun hy => absurd hy.2 (by decide))
        (consentLaw_of_mem_types (t := Client.ALLOW_ONCE) (by decide) hret (by decide) (by decide))
    · exact other (by rw [ht]; rfl) (by decide) (fun hy => absurd hy.2 (by decide))
        (consentLaw_of_mem_types (t := Client.ALLOW_PER_SESSION) (by decide) hret (by decide)
          (by decide))
    · exact life (d := Client.ALLOW_PER_LIFE) (by rw [ht]; rfl) (by decide) ⟨hret, by decide⟩
        (consentLaw_allow hret)
  · have hd : decision P (response ret button) = P.DENY := by
      rcases ht with ht | ht <;> rw [ht] <;> rfl
    have hno : ∀ {bs : List Int32}, bs ⊆ buttons.map Prod.fst →
        ¬ (ret = NOTIFICATION_ERROR_NONE ∧ button ∈ bs) := fun hbs hy =>
      hb.elim (fun hne => hne hy.1) fun hnb => hnb (hbs hy.2)
    exact other hd (AskUserPlugin.not_perLife_of_reserved P.deny_reserved)
      (hno (by simp [buttons])) (consentLaw_deny (hno (by simp [buttons])))

/-- **The consent law.** After any sequence of calls on a new plugin, and in any reachable state of
the agent with a request in `m_requests`: whatever `notification_wait_response` returns to the
dialog and whatever number it gives as the button, the response that the agent sends carries data
with which `update` grants access for the three buttons that say yes, and for nothing else. -/
theorem consent (P : PredefinedPolicyType) (A : CynaraApi) (xs : List AskUserPlugin.Call) :
    ∃ plugin, AskUserPlugin.new.calls P xs = some plugin ∧
      ∀ (L : Limits) (s : Agent) (id : Agent.RequestId) (p : Agent.RequestPtr) (u : Agent.UIPtr)
        (ret : ℤ) (button : Int32),
        Agent.Reachable L Run.always s → s.pc = .response ⟨id, response ret button, u⟩ →
        s.store.requests.lookup id = some p →
        ∃ s' data, Agent.processUIResponse ⟨id, response ret button, u⟩ s = .ok () s' ∧
          Agent.responses (s'.store.story p) = Agent.responses (s.store.story p) ++
            [⟨.RT_Action, id, data, .response ⟨id, response ret button, u⟩⟩] ∧
          Consented P A plugin ret button data := by
  obtain ⟨plugin, hcalls, hrem⟩ := AskUserPlugin.calls_remembers
    (P := P) AskUserPlugin.remembers_new xs
  refine ⟨plugin, hcalls, fun L s id p u ret button hs hpc hl => ?_⟩
  have hinv : Agent.Inv s := (Agent.sound hs).resolve_left (by simp [hpc])
  obtain ⟨r, hp, hid, -⟩ := hinv.pending_live hl
  obtain ⟨d, hrun, -, -⟩ := Agent.processUIResponse_answers hinv
    (q := ⟨id, response ret button, u⟩) hl hp
  refine ⟨_, pluginData (response ret button), hrun, ?_, consented A hrem ret button⟩
  simp [Agent.responses, Agent.answer, hid]

/-- The button 6 in the dialog of a first question. -/
theorem consent_yes_life : ∃ s : Agent, Agent.Reachable .lp64 Run.always s ∧
    ∃ s' data, Agent.processUIResponse ⟨1, response 0 6, 0⟩ s = .ok () s' ∧
      Agent.responses (s'.store.story 0) = Agent.responses (s.store.story 0) ++
        [⟨.RT_Action, 1, data, .response ⟨1, response 0 6, 0⟩⟩] ∧
      ∃ plugin, AskUserPlugin.new.calls .cynara [] = some plugin ∧
        Consented .cynara .cynara plugin 0 6 data := by
  obtain ⟨s, hs, hst⟩ : ∃ s : Agent, Agent.Reachable .lp64 Run.always s ∧
      (s.pc, s.store.requests.lookup 1) = (.response ⟨1, response 0 6, 0⟩, some 0) :=
    Run.Reachable.exists_of_exec
      [Agent.tick, .talker (.initialized true), .talker (.received .ACTION 1 Agent.question),
        Agent.tick, Agent.tick, Agent.tick, Agent.tick, .post 0 0 6, Agent.tick] (by decide +kernel)
  rw [Prod.mk.injEq] at hst
  obtain ⟨plugin, hcalls, hlaw⟩ := consent .cynara .cynara []
  obtain ⟨s', data, hrun, hsent, hdata⟩ := hlaw .lp64 s 1 0 0 0 6 hs hst.1 hst.2
  exact ⟨s, hs, s', data, hrun, hsent, plugin, hcalls, hdata⟩

end AskUser
