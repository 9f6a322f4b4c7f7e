import AskUser.Announcement
import AskUser.PendingRequests

/-!
# The main thread keeps up

What the loop of `run` owes to those who wait for it, whatever the other threads push meanwhile:

* it takes at most one request and one response in a round, so a request or a response is taken
  after as many rounds as there are others before it in its queue (`taken_in_turn`), and neither
  queue can keep the other waiting;
* it has caught up after a number of steps that the length of the queues and the number of pushes
  bound (`catches_up`), and then every request that is left waits for its user, unless the callback
  of its dialog has thrown;
* `m_stopFlag` is looked at between two visits of `wait_for` only, so SIGTERM ends the loop within
  the same bound (`stops`).

Steps are counted for the main thread alone. `LoopStep` is what they do to the queues.
-/

namespace AskUser.Agent
open RequestType Objects Fallible
open AskUser.System (inLoop mainStep_left)

variable {L : Limits} {c : Choice} {s s' : Agent} {p : RequestPtr} {q : Response}

/-! ### The steps of the loop -/

/-- Both queues are as before. -/
def SameQueues (s s' : Agent) : Prop :=
  s'.store.incomingRequests = s.store.incomingRequests ∧
    s'.incomingResponses = s.incomingResponses

/-- What a step of the main thread does to the queues, and where it leads. -/
inductive LoopStep (s s' : Agent) : Prop
  | left : inLoop s'.pc = false → LoopStep s s'
  | start : s.pc = .start → s'.pc = .outer → SameQueues s s' → LoopStep s s'
  | wait : s.pc = .outer → s.stopFlag = false → s'.pc = .waiting → SameQueues s s' → LoopStep s s'
  | wake : s.pc = .waiting → s'.pc = .inner → SameQueues s s' → LoopStep s s'
  | popRequest (p : RequestPtr) : s.pc = .inner → s'.pc = .request p →
      s.store.incomingRequests = p :: s'.store.incomingRequests →
      s'.incomingResponses = s.incomingResponses → LoopStep s s'
  | onlyResponses : s.pc = .inner → s.store.incomingRequests = [] → s.incomingResponses ≠ [] →
      s'.pc = .responses → SameQueues s s' → LoopStep s s'
  | idle : s.pc = .inner → s.store.incomingRequests = [] → s.incomingResponses = [] →
      s'.pc = .outer → SameQueues s s' → LoopStep s s'
  | closed (p : RequestPtr) : s.pc = .request p → s'.pc = .outer → s'.stopFlag →
      SameQueues s s' → LoopStep s s'
  | processed (p : RequestPtr) : s.pc = .request p → s'.pc = .responses → SameQueues s s' →
      LoopStep s s'
  | popResponse (q : Response) : s.pc = .responses → s'.pc = .response q →
      s.incomingResponses = q :: s'.incomingResponses →
      s'.store.incomingRequests = s.store.incomingRequests → LoopStep s s'
  | noResponse : s.pc = .responses → s.incomingResponses = [] → s'.pc = .cleanup →
      SameQueues s s' → LoopStep s s'
  | answered (q : Response) : s.pc = .response q → s'.pc = .cleanup → SameQueues s s' →
      LoopStep s s'
  | cleaned : s.pc = .cleanup → s'.pc = .inner → SameQueues s s' → LoopStep s s'

/-- Where the main thread looks at the queues and the flag. -/
theorem mainStep_looks (hpc : s.pc = .outer ∨ s.pc = .waiting ∨ s.pc = .inner ∨ s.pc = .responses) :
    LoopStep s (mainStep L c s) := by
  unfold mainStep
  rcases hpc with hpc | hpc | hpc | hpc
  · simp only [hpc, call]
    rw [get_bind]
    by_cases hstop : s.stopFlag
    · rw [if_pos hstop]
      exact .left rfl
    · rw [if_neg hstop]
      exact .wait hpc (by simpa using hstop) rfl ⟨rfl, rfl⟩
  · simp only [hpc, call]
    rw [get_bind]
    by_cases hstop : s.stopFlag
    · rw [if_pos hstop]
      exact .left rfl
    · rw [if_neg hstop]
      exact .wake hpc rfl ⟨rfl, rfl⟩
  · simp only [hpc, call]
    rw [get_bind]
    cases hq : s.store.incomingRequests with
    | cons p rest => exact .popRequest p hpc rfl hq rfl
    | nil =>
      simp only
      rw [get_bind]
      by_cases hr : s.incomingResponses = []
      · rw [if_pos hr]
        exact .idle hpc hq hr rfl ⟨rfl, rfl⟩
      · rw [if_neg hr]
        exact .onlyResponses hpc hq hr rfl ⟨rfl, rfl⟩
  · simp only [hpc, call]
    rw [get_bind]
    cases hq : s.incomingResponses with
    | cons q rest => exact .popResponse q hpc rfl hq rfl
    | nil => exact .noResponse hpc hq rfl ⟨rfl, rfl⟩

theorem mainStep_loop (h : Inv s) (hpc : s.pc.isFinal = false) : LoopStep s (mainStep L c s) := by
  have hs := mainStep_cases (L := L) (c := c) h hpc
  have hlooks := mainStep_looks (L := L) (c := c) (s := s)
  generalize mainStep L c s = s' at hs hlooks
  cases hs with
  | start hpc => exact .start hpc rfl ⟨rfl, rfl⟩
  | moves hm =>
    refine hlooks ?_
    generalize s.pc = pc₀ at hm
    cases hm <;> simp
  | popped hpc | poppedResponse hpc => exact hlooks (by simp [hpc])
  | @closed p r hpc => exact .closed p hpc rfl rfl ⟨rfl, rfl⟩
  | @cancelled p q r d hpc | @duplicate p q r hpc | @unknownCancel p r hpc
  | @startFailed p r d hpc => exact .processed p hpc rfl ⟨rfl, rfl⟩
  | @recorded p r d hpc _ _ hl => exact .processed p hpc rfl ⟨by rw [Requests.insert_eq hl], rfl⟩
  | @answered q p r d hpc | @unmatched q d hpc => exact .answered q hpc rfl ⟨rfl, rfl⟩
  | cleaned hpc => exact .cleaned hpc rfl ⟨rfl, rfl⟩
  | thrown | clashed | exited | finished => exact .left rfl

/-- The flag is never cleared while the loop is on. -/
theorem MainStep.stopFlag (hs : MainStep L c s s') (hloop : inLoop s'.pc) (hstop : s.stopFlag) :
    s'.stopFlag := by
  cases hs with
  | exited | finished => simp [inLoop] at hloop
  | closed => rfl
  | start | moves | popped | cancelled | duplicate | unknownCancel | thrown | startFailed | clashed
  | recorded | poppedResponse | answered | unmatched | cleaned => exact hstop

/-! ### The other threads -/

/-- What a step of another thread leaves of the queues, the flag and the place of the main
thread. -/
structure Alongside (s s' : Agent) : Prop where
  pc : s'.pc = s.pc
  incomingRequests : s.store.incomingRequests <+: s'.store.incomingRequests
  incomingResponses : s.incomingResponses <+: s'.incomingResponses
  stopFlag : s.stopFlag → s'.stopFlag

theorem OtherStep.alongside (hs : OtherStep s s') : Alongside s s' := by
  cases hs with
  | talker | threw | threadFinished => exact ⟨rfl, List.prefix_rfl, List.prefix_rfl, id⟩
  | handed => exact ⟨rfl, List.prefix_append _ _, List.prefix_rfl, id⟩
  | posted => exact ⟨rfl, List.prefix_rfl, List.prefix_append _ _, id⟩
  | sigterm => exact ⟨rfl, List.prefix_rfl, List.prefix_rfl, fun _ => rfl⟩

/-- The steps of the main thread are those that count. -/
def isMain : Label → Bool
  | .main _ => true
  | _ => false

/-- The steps that push something: an event of the talker that hands in a request, and the response
of a dialog. -/
def pushes : Label → Bool
  | .talker e => e.request.isSome
  | .post .. => true
  | _ => false

/-- How many steps of the main thread the queues are good for. -/
def weight (s : Agent) : ℕ :=
  5 * s.store.incomingRequests.length + 4 * s.incomingResponses.length

/-- Only a push makes the queues longer. -/
theorem weight_elsewhere {l : Label} (hl : isMain l = false) (hs : step L l s = some s') :
    weight s' ≤ weight s + 5 * (pushes l).toNat := by
  unfold step at hs
  split_ifs at hs
  cases l with
  | main c => simp [isMain] at hl
  | talker e =>
    obtain ⟨-, -, hs'⟩ := talkerStep_spec hs
    rw [hs']
    cases hr : e.request with
    | none => simp [weight]
    | some r =>
      simp [weight, pushes, hr, requestHandler, Requests.hand]
      omega
  | post u ret b =>
    obtain ⟨ui, -, -, rfl⟩ := postStep_spec hs
    simp [weight, pushes, UIResponseHandler]
    omega
  | postThrows u =>
    obtain ⟨ui, -, -, rfl⟩ := throwStep_spec hs
    exact Nat.le_refl _
  | finish u =>
    obtain ⟨ui, -, -, rfl⟩ := finishStep_spec hs
    exact Nat.le_refl _
  | sigterm =>
    obtain rfl := Option.some.inj hs
    exact Nat.le_refl _

/-- **The rule for the loop.** A bound on the steps of the main thread from `s` to a goal, or to the
end of the loop. -/
theorem passes_of_loopStep (P goal : Agent → Prop) (rank : Agent → ℕ) (charge : ℕ)
    (hpos : ∀ s, P s → 0 < rank s)
    (hmain : ∀ s s', P s → s.pc.isFinal = false → LoopStep s s' →
      (inLoop s'.pc → s.stopFlag → s'.stopFlag) →
      inLoop s'.pc = false ∨ goal s' ∨ P s' ∧ rank s' + 1 ≤ rank s)
    (hother : ∀ l s s', P s → isMain l = false → step L l s = some s' → Alongside s s' →
      P s' ∧ rank s' ≤ rank s + charge * (pushes l).toNat)
    {ls : List Label} (hr : Reachable L Run.always s) (h : P s)
    (hs : Run.exec (step L) Run.always ls s = some s')
    (hlong : rank s + charge * ls.countP pushes ≤ ls.countP isMain) :
    Run.Passes (step L) (fun s => inLoop s.pc = false ∨ goal s) ls s := by
  refine Run.exec_passes (fun n s => (Reachable L Run.always s ∧ P s) ∧ rank s = n)
    (fun s hz => ?_) (fun l n s s' hw hs => ?_) hs ⟨⟨hr, h⟩, rfl⟩ hlong
  · have := hpos s hz.1.2
    omega
  · obtain ⟨⟨hr, hP⟩, rfl⟩ := hw
    have hr' : Reachable L Run.always s' := .step l hr trivial hs
    have hrun : s.pc.isFinal = false := by
      by_contra hfinal
      simp [step, hfinal] at hs
    have hinv : Inv s := (sound hr).resolve_left fun hcrash => by
      simp [hcrash, Pc.isFinal] at hrun
    cases hl : isMain l with
    | true =>
      obtain ⟨c, rfl⟩ : ∃ c, l = .main c := by
        cases l with
        | main c => exact ⟨c, rfl⟩
        | talker | post | postThrows | finish | sigterm => simp [isMain] at hl
      obtain rfl : mainStep L c s = s' := by simpa [step, hrun] using hs
      rcases hmain s _ hP hrun (mainStep_loop hinv hrun) fun hloop hstop =>
        (mainStep_cases hinv hrun).stopFlag hloop hstop with hleft | hgoal | ⟨hP', hle⟩
      · exact Or.inl (Or.inl hleft)
      · exact Or.inl (Or.inr hgoal)
      · exact Or.inr ⟨_, ⟨⟨hr', hP'⟩, rfl⟩, by simp; omega⟩
    | false =>
      obtain ⟨-, ⟨c, rfl, -⟩ | ⟨-, hstep⟩⟩ := step_cases hinv hs
      · simp [isMain] at hl
      · obtain ⟨hP', hle⟩ := hother l s s' hP hl hs hstep.alongside
        exact Or.inr ⟨_, ⟨⟨hr', hP'⟩, rfl⟩, by simpa using hle⟩

/-! ### Neither queue keeps the other waiting -/

/-- How far it is to the next response that is popped, in steps of the main thread. -/
def turnOfResponses (s : Agent) : ℕ :=
  match s.pc with
  | .start => 6
  | .outer => if s.stopFlag then 1 else 5
  | .response _ => 5
  | .waiting | .cleanup => 4
  | .inner => 3
  | .request _ => 2
  | _ => 1

/-- How far it is to the next request that is popped, in steps of the main thread. -/
def turnOfRequests (s : Agent) : ℕ :=
  match s.pc with
  | .start => 6
  | .outer => if s.stopFlag then 1 else 3
  | .request _ => 5
  | .responses => 4
  | .response _ => 3
  | .waiting | .cleanup => 2
  | _ => 1

theorem turnOfResponses_bounds (s : Agent) : 0 < turnOfResponses s ∧ turnOfResponses s ≤ 6 := by
  unfold turnOfResponses
  split
  case h_2 => split <;> omega
  all_goals omega

theorem turnOfRequests_bounds (s : Agent) : 0 < turnOfRequests s ∧ turnOfRequests s ≤ 6 := by
  unfold turnOfRequests
  split
  case h_2 => split <;> omega
  all_goals omega

theorem Alongside.turnOfResponses (h : Alongside s s') :
    turnOfResponses s' ≤ turnOfResponses s := by
  simp only [Agent.turnOfResponses, h.pc]
  split
  case h_2 =>
    have := h.stopFlag
    split_ifs <;> simp_all
  all_goals exact Nat.le_refl _

theorem Alongside.turnOfRequests (h : Alongside s s') : turnOfRequests s' ≤ turnOfRequests s := by
  simp only [Agent.turnOfRequests, h.pc]
  split
  case h_2 =>
    have := h.stopFlag
    split_ifs <;> simp_all
  all_goals exact Nat.le_refl _

theorem idxOf_of_initial {α : Type} [DecidableEq α] {xs ys : List α} {x : α} (h : xs <+: ys)
    (hx : x ∈ xs) : ys.idxOf x = xs.idxOf x := by
  obtain ⟨zs, rfl⟩ := h
  exact List.idxOf_append_of_mem hx

/-- **The rule for a queue.** Whatever has `k` others before it is taken within `5 * k + 6` steps of
the main thread, where `turn` says how far it is to the next that is taken. -/
theorem taken_of_turn {α : Type} [DecidableEq α] (queue : Agent → List α) (place : α → Pc)
    (turn : Agent → ℕ) (hturn : ∀ s, 0 < turn s ∧ turn s ≤ 6)
    (hmain : ∀ s s', LoopStep s s' → inLoop s'.pc = false ∨ queue s = [] ∨
      (∃ x, queue s = x :: queue s' ∧ s'.pc = place x ∧ turn s' + 1 ≤ turn s + 5) ∨
      (queue s' = queue s ∧ turn s' + 1 ≤ turn s))
    (hother : ∀ s s', Alongside s s' → queue s <+: queue s' ∧ turn s' ≤ turn s)
    (hr : Reachable L Run.always s) {ls : List Label}
    (hs : Run.exec (step L) Run.always ls s = some s') {x : α} (hx : x ∈ queue s)
    (hlong : 5 * (queue s).idxOf x + 6 ≤ ls.countP isMain) :
    Run.Passes (step L) (fun s => inLoop s.pc = false ∨ s.pc = place x) ls s := by
  have hle := (hturn s).2
  refine passes_of_loopStep (fun s => x ∈ queue s) (fun s => s.pc = place x)
    (fun s => 5 * (queue s).idxOf x + turn s) 0 ?_ ?_ ?_ hr hx hs (by omega)
  · intro s _
    have := (hturn s).1
    omega
  · intro s s' hx _ hstep _
    rcases hmain s s' hstep with hleft | hnil | ⟨y, hqueue, hplace, hle⟩ | ⟨hsame, hle⟩
    · exact Or.inl hleft
    · simp [hnil] at hx
    · right
      rw [hqueue, List.mem_cons] at hx
      by_cases heq : y = x
      · exact Or.inl (heq ▸ hplace)
      · refine Or.inr ⟨hx.resolve_left fun he => heq he.symm, ?_⟩
        rw [hqueue, List.idxOf_cons_ne _ heq]
        omega
    · refine Or.inr (Or.inr ⟨hsame ▸ hx, ?_⟩)
      rw [hsame]
      omega
  · intro l s s' hx _ _ hstep
    obtain ⟨hinitial, hle⟩ := hother s s' hstep
    refine ⟨hinitial.subset hx, ?_⟩
    rw [idxOf_of_initial hinitial hx]
    omega

theorem LoopStep.turnOfResponses (h : LoopStep s s') : inLoop s'.pc = false ∨
    s.incomingResponses = [] ∨
    (∃ q, s.incomingResponses = q :: s'.incomingResponses ∧ s'.pc = .response q ∧
      Agent.turnOfResponses s' + 1 ≤ Agent.turnOfResponses s + 5) ∨
    (s'.incomingResponses = s.incomingResponses ∧
      Agent.turnOfResponses s' + 1 ≤ Agent.turnOfResponses s) := by
  cases h with
  | left h => exact Or.inl h
  | noResponse _ hnil => exact Or.inr (Or.inl hnil)
  | idle _ _ hnil => exact Or.inr (Or.inl hnil)
  | popResponse q hpc hpc' hqueue =>
    exact Or.inr (Or.inr (Or.inl ⟨q, hqueue, hpc', by simp [Agent.turnOfResponses, hpc, hpc']⟩))
  | popRequest p hpc hpc' _ hsame =>
    exact Or.inr (Or.inr (Or.inr ⟨hsame, by simp [Agent.turnOfResponses, hpc, hpc']⟩))
  | start hpc hpc' hsame =>
    refine Or.inr (Or.inr (Or.inr ⟨hsame.2, ?_⟩))
    simp only [Agent.turnOfResponses, hpc, hpc']
    split <;> omega
  | wait hpc hstop hpc' hsame =>
    exact Or.inr (Or.inr (Or.inr ⟨hsame.2, by simp [Agent.turnOfResponses, hpc, hpc', hstop]⟩))
  | closed p hpc hpc' hstop hsame =>
    exact Or.inr (Or.inr (Or.inr ⟨hsame.2, by simp [Agent.turnOfResponses, hpc, hpc', hstop]⟩))
  | wake hpc hpc' hsame | onlyResponses hpc _ _ hpc' hsame | processed p hpc hpc' hsame
  | answered q' hpc hpc' hsame | cleaned hpc hpc' hsame =>
    exact Or.inr (Or.inr (Or.inr ⟨hsame.2, by simp [Agent.turnOfResponses, hpc, hpc']⟩))

theorem LoopStep.turnOfRequests (h : LoopStep s s') : inLoop s'.pc = false ∨
    s.store.incomingRequests = [] ∨
    (∃ p, s.store.incomingRequests = p :: s'.store.incomingRequests ∧ s'.pc = .request p ∧
      Agent.turnOfRequests s' + 1 ≤ Agent.turnOfRequests s + 5) ∨
    (s'.store.incomingRequests = s.store.incomingRequests ∧
      Agent.turnOfRequests s' + 1 ≤ Agent.turnOfRequests s) := by
  cases h with
  | left h => exact Or.inl h
  | onlyResponses _ hnil => exact Or.inr (Or.inl hnil)
  | idle _ hnil => exact Or.inr (Or.inl hnil)
  | popRequest p hpc hpc' hqueue =>
    exact Or.inr (Or.inr (Or.inl ⟨p, hqueue, hpc', by simp [Agent.turnOfRequests, hpc, hpc']⟩))
  | popResponse q hpc hpc' _ hsame =>
    exact Or.inr (Or.inr (Or.inr ⟨hsame, by simp [Agent.turnOfRequests, hpc, hpc']⟩))
  | start hpc hpc' hsame =>
    refine Or.inr (Or.inr (Or.inr ⟨hsame.1, ?_⟩))
    simp only [Agent.turnOfRequests, hpc, hpc']
    split <;> omega
  | wait hpc hstop hpc' hsame =>
    exact Or.inr (Or.inr (Or.inr ⟨hsame.1, by simp [Agent.turnOfRequests, hpc, hpc', hstop]⟩))
  | closed p' hpc hpc' hstop hsame =>
    exact Or.inr (Or.inr (Or.inr ⟨hsame.1, by simp [Agent.turnOfRequests, hpc, hpc', hstop]⟩))
  | wake hpc hpc' hsame | noResponse hpc _ hpc' hsame | processed p' hpc hpc' hsame
  | answered q hpc hpc' hsame | cleaned hpc hpc' hsame =>
    exact Or.inr (Or.inr (Or.inr ⟨hsame.1, by simp [Agent.turnOfRequests, hpc, hpc']⟩))

/-- **Everything is taken in its turn.** A response or a request with `k` others before it in its
queue is popped within `5 * k + 6` steps of the main thread, unless these leave the loop, and
whatever the other threads push meanwhile. -/
theorem taken_in_turn (hr : Reachable L Run.always s) {ls : List Label}
    (hs : Run.exec (step L) Run.always ls s = some s') :
    (∀ q ∈ s.incomingResponses, 5 * s.incomingResponses.idxOf q + 6 ≤ ls.countP isMain →
      Run.Passes (step L) (fun s => inLoop s.pc = false ∨ s.pc = .response q) ls s) ∧
    ∀ p ∈ s.store.incomingRequests, 5 * s.store.incomingRequests.idxOf p + 6 ≤ ls.countP isMain →
      Run.Passes (step L) (fun s => inLoop s.pc = false ∨ s.pc = .request p) ls s := by
  constructor
  · intro q hq hlong
    exact taken_of_turn (fun s => s.incomingResponses) .response turnOfResponses
      turnOfResponses_bounds (fun _ _ h => h.turnOfResponses)
      (fun _ _ h => ⟨h.incomingResponses, h.turnOfResponses⟩) hr hs hq hlong
  · intro p hp hlong
    exact taken_of_turn (fun s => s.store.incomingRequests) .request turnOfRequests
      turnOfRequests_bounds (fun _ _ h => h.turnOfRequests)
      (fun _ _ h => ⟨h.incomingRequests, h.turnOfRequests⟩) hr hs hp hlong

/-- A question waits for a Cancel before it, while the main thread is in `wait_for`. -/
theorem taken_in_turn_second : ∃ s, Reachable .lp64 Run.always s ∧
    s.store.incomingRequests = [0, 1] ∧
    Run.Passes (step .lp64) (fun s => inLoop s.pc = false ∨ s.pc = .request 1)
      (List.replicate 11 tick) s := by
  obtain ⟨s, s', hr, hqueue, hs, -⟩ : ∃ s s', Reachable .lp64 Run.always s ∧
      s.store.incomingRequests = [0, 1] ∧
      Run.exec (step .lp64) Run.always (List.replicate 11 tick) s = some s' ∧ s'.pc = .waiting :=
    Run.exists_exec_append
      [tick, .talker (.initialized true), tick, .talker (.received .CANCEL 1 []),
        .talker (.received .ACTION 1 question)] _ (by decide +kernel) (by decide +kernel)
  refine ⟨s, hr, hqueue, (taken_in_turn hr hs).2 1 (by simp [hqueue]) ?_⟩
  rw [hqueue]
  decide

/-! ### Catching up -/

/-- What is left of the round in hand. -/
def lap (s : Agent) : ℕ :=
  match s.pc with
  | .request _ => 6
  | .responses => if s.incomingResponses = [] then 5 else 1
  | .start => 5
  | .outer => if s.stopFlag then 1 else 4
  | .response _ => 4
  | .waiting | .cleanup => 3
  | .inner => 2
  | _ => 1

/-- A bound for the steps of the main thread that it takes to catch up. -/
def backlog (s : Agent) : ℕ := weight s + lap s

/-- Both queues are empty, and the main thread goes to `wait_for`. -/
def CaughtUp (s : Agent) : Prop :=
  s.pc = .outer ∧ s.store.incomingRequests = [] ∧ s.incomingResponses = []

theorem lap_pos (s : Agent) : 0 < lap s := by
  unfold lap
  split
  case h_2 | h_4 => split <;> omega
  all_goals omega

theorem Alongside.lap (h : Alongside s s') : lap s' ≤ lap s := by
  simp only [Agent.lap, h.pc]
  split
  case h_2 =>
    have hprefix := h.incomingResponses
    by_cases hnil : s'.incomingResponses = []
    · rw [hnil, List.prefix_nil] at hprefix
      simp [hnil, hprefix]
    · rw [if_neg hnil]
      split <;> omega
  case h_4 =>
    have := h.stopFlag
    split_ifs <;> simp_all
  all_goals exact Nat.le_refl _

/-- A step of the loop works off the backlog, unless it has caught up; while the loop is to be
stopped it works it off in any case. -/
theorem LoopStep.backlog (h : LoopStep s s') : inLoop s'.pc = false ∨
    (CaughtUp s' ∧ s'.stopFlag = false) ∨ Agent.backlog s' + 1 ≤ Agent.backlog s := by
  have same : SameQueues s s' → Agent.lap s' + 1 ≤ Agent.lap s →
      Agent.backlog s' + 1 ≤ Agent.backlog s := by
    rintro ⟨hrequests, hresponses⟩ hle
    simp only [Agent.backlog, weight, hrequests, hresponses]
    omega
  cases h with
  | left h => exact Or.inl h
  | start hpc hpc' hsame =>
    refine Or.inr (Or.inr (same hsame ?_))
    simp only [Agent.lap, hpc, hpc']
    split <;> omega
  | wait hpc hstop hpc' hsame =>
    exact Or.inr (Or.inr (same hsame (by simp [Agent.lap, hpc, hpc', hstop])))
  | closed p hpc hpc' hstop hsame =>
    exact Or.inr (Or.inr (same hsame (by simp [Agent.lap, hpc, hpc', hstop])))
  | processed p hpc hpc' hsame =>
    refine Or.inr (Or.inr (same hsame ?_))
    simp only [Agent.lap, hpc, hpc']
    split <;> omega
  | onlyResponses hpc hnil hresponses hpc' hsame =>
    refine Or.inr (Or.inr (same hsame ?_))
    simp [Agent.lap, hpc, hpc', hsame.2, hresponses]
  | noResponse hpc hnil hpc' hsame =>
    exact Or.inr (Or.inr (same hsame (by simp [Agent.lap, hpc, hpc', hnil])))
  | wake hpc hpc' hsame | answered q hpc hpc' hsame | cleaned hpc hpc' hsame =>
    exact Or.inr (Or.inr (same hsame (by simp [Agent.lap, hpc, hpc'])))
  | popRequest p hpc hpc' hqueue hsame =>
    right; right
    simp only [Agent.backlog, weight, hqueue, hsame, Agent.lap, hpc, hpc', List.length_cons]
    omega
  | popResponse q hpc hpc' hqueue hsame =>
    right; right
    simp [Agent.backlog, weight, hqueue, hsame, Agent.lap, hpc, hpc']
    omega
  | idle hpc hnil hresponses hpc' hsame =>
    right
    cases hstop : s'.stopFlag with
    | false => exact Or.inl ⟨⟨hpc', hsame.1.trans hnil, hsame.2.trans hresponses⟩, rfl⟩
    | true => exact Or.inr (same hsame (by simp [Agent.lap, hpc, hpc', hstop]))

/-- Another thread adds to the backlog by pushing only. -/
theorem backlog_elsewhere {l : Label} (hl : isMain l = false) (hs : step L l s = some s')
    (h : Alongside s s') : backlog s' ≤ backlog s + 5 * (pushes l).toNat := by
  have := weight_elsewhere hl hs
  have := h.lap
  simp only [backlog]
  omega

/-- What is left when the main thread has caught up: requests that wait for their user, and those
whose dialogs' callbacks have thrown. -/
structure OnlyWaiting (s : Agent) : Prop where
  incomingRequests : s.store.incomingRequests = []
  incomingResponses : s.incomingResponses = []
  pending : ∀ {p r}, s.store.objects.cell p = some r → s.store.requests.lookup r.id = some p
  waits : ∀ {i p}, s.store.requests.lookup i = some p → ∃ u ui,
    s.dialogs.objects.cell u = some ui ∧ ui.requestId = i ∧ ui.dismissing = false ∧
      (ui.thread = .running ∨ s.Threw u)

theorem CaughtUp.onlyWaiting (h : CaughtUp s) (hr : Reachable L Run.always s) : OnlyWaiting s := by
  obtain ⟨hpc, hqueue, hresponses⟩ := h
  obtain ⟨hinv, hserved⟩ := (served hr).resolve_left (by simp [hpc, Pc.isFinal])
  refine ⟨hqueue, hresponses, fun {p r} hp => ?_, fun hl => ?_⟩
  · obtain ⟨pl, hpl⟩ := hinv.owned.live.1 hp
    obtain ⟨hone, -⟩ := hinv.in_one_place hpl
    by_contra hno
    simp [hqueue, hpc, hno] at hone
  · obtain ⟨u, ui, hu, hid, hdis, hrunning | ⟨q, hq, -⟩ | hthrew⟩ := hserved.pending hl
    · exact ⟨u, ui, hu, hid, hdis, Or.inl hrunning⟩
    · rcases hq with hq | hq
      · simp [hresponses] at hq
      · simp [hpc] at hq
    · exact ⟨u, ui, hu, hid, hdis, Or.inr hthrew⟩

/-- **The main thread catches up.** Within `backlog s` of its steps, and five more for each push
meanwhile, it leaves the loop, or comes to a state where every request that is left is pending and
its dialog waits for the user or has a callback that threw. -/
theorem catches_up (hr : Reachable L Run.always s) {ls : List Label}
    (hs : Run.exec (step L) Run.always ls s = some s')
    (hlong : backlog s + 5 * ls.countP pushes ≤ ls.countP isMain) :
    Run.Passes (step L) (fun s => inLoop s.pc = false ∨ OnlyWaiting s) ls s := by
  refine (passes_of_loopStep (fun _ => True) CaughtUp backlog 5
    (fun s _ => Nat.lt_of_lt_of_le (lap_pos s) (Nat.le_add_left _ _)) (fun s s' _ _ hstep _ => ?_)
    (fun l s s' _ hl hs h => ⟨trivial, backlog_elsewhere hl hs h⟩) hr trivial hs hlong).mono
    fun s₁ hs₁ hgoal => hgoal.imp_right fun hcaught => hcaught.onlyWaiting (hr.trans hs₁)
  rcases hstep.backlog with hleft | ⟨hcaught, -⟩ | hle
  · exact Or.inl hleft
  · exact Or.inr (Or.inl hcaught)
  · exact Or.inr (Or.inr ⟨trivial, hle⟩)

/-- Two questions with one id are queued. -/
theorem catches_up_duplicate : ∃ s, Reachable .lp64 Run.always s ∧ backlog s = 12 ∧
    Run.Passes (step .lp64) (fun s => inLoop s.pc = false ∨ OnlyWaiting s)
      (List.replicate 12 tick) s := by
  obtain ⟨s, s', hr, hbacklog, hs, -⟩ : ∃ s s', Reachable .lp64 Run.always s ∧ backlog s = 12 ∧
      Run.exec (step .lp64) Run.always (List.replicate 12 tick) s = some s' ∧ s'.pc = .outer :=
    Run.exists_exec_append
      [tick, .talker (.initialized true), tick, tick, .talker (.received .ACTION 1 question),
        .talker (.received .ACTION 1 question)] _ (by decide +kernel) (by decide +kernel)
  refine ⟨s, hr, hbacklog, catches_up hr hs ?_⟩
  rw [hbacklog]
  decide

/-- The loop is not entered again. -/
theorem step_left {l : Label} (hr : Reachable L Run.always s) (hs : step L l s = some s')
    (hleft : inLoop s.pc = false) : inLoop s'.pc = false := by
  rcases sound hr with hcrash | hinv
  · simp [step_crashed hcrash] at hs
  · obtain ⟨-, ⟨c, -, hmain⟩ | ⟨-, hother⟩⟩ := step_cases hinv hs
    · exact mainStep_left hmain hleft
    · rw [hother.alongside.pc, hleft]

/-- **SIGTERM ends the loop.** Once `m_stopFlag` is set, the main thread leaves the loop within
`backlog s` steps, and five more for each push meanwhile. -/
theorem stops (hr : Reachable L Run.always s) (hstop : s.stopFlag) {ls : List Label}
    (hs : Run.exec (step L) Run.always ls s = some s')
    (hlong : backlog s + 5 * ls.countP pushes ≤ ls.countP isMain) : inLoop s'.pc = false := by
  have hpasses := passes_of_loopStep (fun s => s.stopFlag) (fun s => inLoop s.pc = false) backlog 5
    (fun s _ => Nat.lt_of_lt_of_le (lap_pos s) (Nat.le_add_left _ _))
    (fun s s' hstop _ hstep hkeeps => ?_)
    (fun l s s' hstop hl hs h => ⟨h.stopFlag hstop, backlog_elsewhere hl hs h⟩) hr hstop hs hlong
  · have hleft : Run.Passes (step L)
        (fun s => Reachable L Run.always s ∧ inLoop s.pc = false) ls s :=
      hpasses.mono fun s₁ hs₁ hgoal => ⟨hr.trans hs₁, hgoal.elim id id⟩
    exact (hleft.at_end hs fun l s s' h hs =>
      ⟨h.1.step l trivial hs, step_left h.1 hs h.2⟩).2
  · cases hloop : inLoop s'.pc with
    | false => exact Or.inl rfl
    | true =>
      have hstop' := hkeeps hloop hstop
      rcases hstep.backlog with hleft | ⟨-, hno⟩ | hle
      · simp [hloop] at hleft
      · simp [hstop'] at hno
      · exact Or.inr (Or.inr ⟨hstop', hle⟩)

/-- SIGTERM comes while a question is queued. -/
theorem stops_question : ∃ s s', Reachable .lp64 Run.always s ∧
    s.store.incomingRequests ≠ [] ∧
    Run.exec (step .lp64) Run.always (List.replicate 7 tick) s = some s' ∧
    inLoop s'.pc = false := by
  obtain ⟨s, s', hr, hst, hs, -⟩ : ∃ s s', Reachable .lp64 Run.always s ∧
      (s.stopFlag, s.store.incomingRequests, backlog s) = (true, [0], 7) ∧
      Run.exec (step .lp64) Run.always (List.replicate 7 tick) s = some s' ∧ s'.pc = .exited :=
    Run.exists_exec_append
      [tick, .talker (.initialized true), tick, tick, .talker (.received .ACTION 1 question),
        .sigterm] _ (by decide +kernel) (by decide +kernel)
  simp only [Prod.mk.injEq] at hst
  refine ⟨s, s', hr, by simp [hst.2.1], hs, stops hr hst.1 hs ?_⟩
  rw [hst.2.2]
  decide

/-! ### A busy agent -/

/-- The agent is to stop, has nothing to do, and is about to look at the queues once more. -/
structure Busy (s : Agent) : Prop where
  pc : s.pc = .inner
  talker : s.talker = .receiving
  stopFlag : s.stopFlag
  incomingRequests : s.store.incomingRequests = []
  incomingResponses : s.incomingResponses = []
  lookup : s.store.requests.lookup 1 = none

/-- Cynara cancels a request that it never made, and the main thread deals with that. -/
def busyRound : List Label := [.talker (.received .CANCEL 1 []), tick, tick, tick, tick]

theorem step_main (hpc : s.pc.isFinal = false) : step L (.main c) s = some (mainStep L c s) := by
  simp [step, hpc]

/-- A Cancel that is for no pending request is dropped. -/
theorem mainStep_unknownCancel {r : Request} (hpc : s.pc = .request p)
    (hp : s.store.objects.cell p = some r) (hcancel : r.type = RT_Cancel)
    (hl : s.store.requests.lookup r.id = none) :
    mainStep L c s = { s with store := s.store.free p, pc := .responses } := by
  have hrun : processCynaraRequest L c p s = .ok () { s with store := s.store.free p } := by
    refine withUniquePtr_deletes (r := r) s ?_ hp
    rw [bind_ok (request_run hp), get_bind]
    simp only [hl, if_pos hcancel]
    rfl
  simp only [mainStep, hpc, call]
  rw [bind_ok (request_run hp), if_neg (by simp [hcancel]), bind_ok hrun]
  rfl

theorem mainStep_noResponse (hpc : s.pc = .responses) (hq : s.incomingResponses = []) :
    mainStep L c s = { s with pc := .cleanup } := by
  have hrun : call L c .responses s = .ok .cleanup s := by
    simp only [call]
    rw [get_bind]
    simp only [hq]
    rfl
  rw [mainStep, hpc, hrun]
  rfl

theorem mainStep_cleaned (h : Inv s) (hpc : s.pc = .cleanup) :
    ∃ d, mainStep L c s = { s with dialogs := d, pc := .inner } := by
  obtain ⟨ret, d, hrun, -⟩ := cleanupUIThreads_swept h.wired
  refine ⟨d, ?_⟩
  simp only [mainStep, hpc, call]
  rw [bind_ok hrun]
  rfl

/-- The round leads back to where it began. -/
theorem Busy.round (h : Busy s) (hr : Reachable L Run.always s) :
    ∃ s', Run.exec (step L) Run.always busyRound s = some s' ∧ Busy s' := by
  let r : Request := ⟨RT_Cancel, 1, []⟩
  let p := s.store.objects.size
  let s₁ := requestHandler s r
  have hs₁ : step L (.talker (.received .CANCEL 1 [])) s = some s₁ := by
    simp [step, talkerStep, h.pc, h.talker, Pc.isFinal, cynaraType2AgentType, s₁, r]
  -- popped, dropped, and no response is there
  let s₂ : Agent := { s₁ with
    store := { s₁.store with incomingRequests := [] }.note p .popped, pc := .request p }
  have hs₂ : step L tick s₁ = some s₂ := by
    have hqueue : s₁.store.incomingRequests = [p] := by
      simp [s₁, requestHandler, Requests.hand, h.incomingRequests, p]
    have hpc : s₁.pc = .inner := h.pc
    exact (step_main (by rw [hpc]; rfl)).trans
      (congrArg some (System.mainStep_popped hpc hqueue))
  let s₃ : Agent := { s₂ with store := s₂.store.free p, pc := .responses }
  have hs₃ : step L tick s₂ = some s₃ := by
    refine (step_main rfl).trans (congrArg some (mainStep_unknownCancel (r := r) rfl ?_ rfl ?_))
    · simp [s₂, s₁, requestHandler, Requests.hand, Requests.note, p]
    · exact h.lookup
  let s₄ : Agent := { s₃ with pc := .cleanup }
  have hs₄ : step L tick s₃ = some s₄ :=
    (step_main rfl).trans (congrArg some (mainStep_noResponse rfl h.incomingResponses))
  have hr₄ : Reachable L Run.always s₄ := (((hr.step _ trivial hs₁).step _ trivial hs₂).step _
    trivial hs₃).step _ trivial hs₄
  obtain ⟨d, hclean⟩ := mainStep_cleaned (L := L) (c := ⟨0, 0, true⟩)
    ((sound hr₄).resolve_left (by simp [s₄])) rfl
  have hs₅ : step L tick s₄ = some { s₄ with dialogs := d, pc := .inner } :=
    (step_main rfl).trans (congrArg some hclean)
  refine ⟨{ s₄ with dialogs := d, pc := .inner }, ?_,
    ⟨rfl, h.talker, h.stopFlag, rfl, h.incomingResponses, h.lookup⟩⟩
  simp only [busyRound, Run.exec_cons]
  exact ⟨trivial, s₁, hs₁, trivial, s₂, hs₂, trivial, s₃, hs₃, trivial, s₄, hs₄, trivial, _, hs₅,
    rfl⟩

theorem Busy.rounds (n : ℕ) (h : Busy s) (hr : Reachable L Run.always s) : ∃ ls s',
    Run.exec (step L) Run.always ls s = some s' ∧ Busy s' ∧ n ≤ ls.countP isMain := by
  induction n generalizing s with
  | zero => exact ⟨[], s, rfl, h, Nat.zero_le _⟩
  | succ n ih =>
    obtain ⟨s₁, hs₁, hbusy⟩ := h.round hr
    obtain ⟨ls, s', hs', hbusy', hn⟩ := ih hbusy (hr.trans (.of_exec .start hs₁))
    refine ⟨busyRound ++ ls, s', Run.exec_append.2 ⟨s₁, hs₁, hs'⟩, hbusy', ?_⟩
    rw [List.countP_append]
    have : busyRound.countP isMain = 4 := rfl
    omega

/-- **SIGTERM does not stop a busy agent.** After it the main thread can take any number of steps
without leaving the loop, if cynara only keeps it busy. -/
theorem busy_forever (L : Limits) (n : ℕ) : ∃ s ls s', Reachable L Run.always s ∧ s.stopFlag ∧
    Run.exec (step L) Run.always ls s = some s' ∧ n ≤ ls.countP isMain ∧ inLoop s'.pc := by
  obtain ⟨s, hs, hbusy⟩ : ∃ s, Reachable L Run.always s ∧ Busy s := by
    refine ⟨{ new with talker := .receiving, stopFlag := true, pc := .inner }, ?_,
      ⟨rfl, rfl, rfl, rfl, rfl, rfl⟩⟩
    have hexec : Run.exec (step L) Run.always
        [tick, .talker (.initialized true), tick, tick, .sigterm] new =
          some { new with talker := .receiving, stopFlag := true, pc := .inner } := rfl
    exact .of_exec .start hexec
  obtain ⟨ls, s', hs', hbusy', hn⟩ := hbusy.rounds n hs
  exact ⟨s, ls, s', hs, hbusy.stopFlag, hs', hn, by rw [hbusy'.pc]; rfl⟩

end AskUser.Agent
