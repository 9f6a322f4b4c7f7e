import AskUser.Delivery
import AskUser.JournalGrowth
import AskUser.Lib.Machine
import AskUser.Locking

/-!
# What the agent is for

The agent is a broker between cynara and the users. `broker` says what that means for one id: two
phases, and what cynara is told. It knows no objects, queues, dialogs or threads.

* `Conversation` puts next to the system what its main thread processes, and what the users answer
  (`exists_conversation`: in every run of the system or of the process);
* `faithful`: in every run the responses are, in order, those of one broker for every id, to the
  requests in the order in which they were handed in and the answers in the order in which they
  were given;
* `silent`: nothing is sent with an id that is not pending, until an Action with this id is
  processed.
-/

namespace AskUser
open Agent RequestType Objects Machines

/-! ### The broker -/

namespace Broker

/-- Whether a question is open. -/
inductive Phase
  | idle
  | pending
  deriving DecidableEq

/-- How `startUIForRequest` ends: with `true`, with `false`, or not by returning. -/
inductive Start
  | shown
  | refused
  | aborted
  deriving DecidableEq

inductive Input
  | request (r : Request) (start : Start)
  | response (q : Response)
  deriving DecidableEq

/-- The type and the data of a response. -/
structure Reply where
  type : RequestType
  data : PluginData
  deriving DecidableEq

namespace Input

def id : Input → RequestId
  | .request r _ => r.id
  | .response q => q.id

def request? : Input → Option Request
  | .request r _ => some r
  | .response _ => none

def response? : Input → Option Response
  | .request _ _ => none
  | .response q => some q

end Input

def step : Phase → Input → Phase × List Reply
  | .idle, .request r start =>
    match r.type, start with
    | RT_Action, .shown => (.pending, [])
    | RT_Action, .refused =>
      (.idle, [⟨RT_Action, Translator.Agent.answerToData 0 AgentErrorMsg.Error⟩])
    | _, _ => (.idle, [])
  | .pending, .request r _ =>
    if r.type = RT_Cancel then (.idle, [⟨RT_Cancel, []⟩]) else (.pending, [])
  | .idle, .response _ => (.idle, [])
  | .pending, .response q => (.idle, [⟨RT_Action, pluginData q.type⟩])

end Broker

/-- What the agent does for one id. -/
def broker : Machine Broker.Phase Broker.Input Broker.Reply := ⟨.idle, Broker.step⟩

/-! ### What the main thread processes -/

namespace Agent
open Broker

variable {L : Limits} {c : Choice} {s s' : Agent} {p : RequestPtr} {r : Request}

def startOf (L : Limits) (c : Choice) (p : RequestPtr) (s : Agent) : Start :=
  match startUIForRequest L c p s with
  | .ok true _ => .shown
  | .ok false _ => .refused
  | .error _ _ => .aborted

/-- The request that the main thread is about to process. -/
def requestInHand (s : Agent) : Option Request :=
  match s.pc with
  | .request p => s.store.objects.cell p
  | _ => none

/-- The response that the main thread is about to process. -/
def responseInHand (s : Agent) : Option Response :=
  match s.pc with
  | .response q => some q
  | _ => none

/-- What a step of the main thread processes. -/
def processes (L : Limits) (c : Choice) (s : Agent) : Option Input :=
  match s.pc with
  | .request p => (s.store.objects.cell p).map fun r => .request r (startOf L c p s)
  | .response q => some (.response q)
  | _ => none

/-- The response that the thread of a dialog gives. -/
def posts (u : UIPtr) (ret : ℤ) (buttonClicked : Int32) (s : Agent) : Option Response :=
  (s.dialogs.objects.cell u).map fun ui =>
    ⟨ui.requestId, AskUINotificationBackend.response ret buttonClicked, u⟩

/-- What cynara is told, under which id. -/
def RequestAct.reply : RequestAct → Option (RequestId × Reply)
  | .sent x => some (x.requestId, ⟨x.requestType, x.data⟩)
  | _ => none

/-- The responses so far, in order. -/
def Requests.replies (b : Requests) : List (RequestId × Reply) :=
  b.journal.entries.filterMap fun e => e.2.reply

/-- The phase of every id: what is in `m_requests` is pending. -/
def phases (s : Agent) (i : RequestId) : Phase :=
  if (s.store.requests.lookup i).isSome then .pending else .idle

end Agent

/-- The system, with what its main thread has processed, under the id that it is about, and the
responses that the dialogs have given. -/
structure Conversation where
  system : System
  processed : Journal RequestId Broker.Input
  posted : List Response

namespace Conversation

def new : Conversation := ⟨.new, .empty, []⟩

def processing (L : Limits) (l : System.Label) (s : System) : Option Broker.Input :=
  match l with
  | .agent (.main c) => s.agent.processes L c
  | _ => none

def posting (l : System.Label) (s : System) : Option Response :=
  match l with
  | .agent (.post u ret buttonClicked) => s.agent.posts u ret buttonClicked
  | _ => none

def step (L : Limits) (l : System.Label) (w : Conversation) : Option Conversation :=
  (System.step L l w.system).map fun s =>
    { system := s
      processed := ⟨w.processed.entries ++
        (processing L l w.system).toList.map fun x => (x.id, x)⟩
      posted := w.posted ++ (posting l w.system).toList }

/-- The states of the runs whose steps all satisfy a condition. -/
abbrev Reachable (L : Limits) (cond : System.Label → Conversation → Prop) : Conversation → Prop :=
  Run.Reachable (step L) cond new

/-- The requests that were processed, in order. -/
def requests (w : Conversation) : List Request :=
  w.processed.entries.filterMap fun x => x.2.request?

/-- The answers that were processed, in order. -/
def responses (w : Conversation) : List Response :=
  w.processed.entries.filterMap fun x => x.2.response?

end Conversation

/-! ### The steps of the main thread -/

namespace Agent
open Broker

variable {L : Limits} {c : Choice} {s s' : Agent} {p : RequestPtr} {r : Request} {i : RequestId}

namespace Requests

variable {b : Requests} {a : RequestAct}

@[simp] theorem replies_note : (b.note p a).replies = b.replies ++ a.reply.toList := by
  simp only [replies, note, Journal.note, List.filterMap_append]
  cases a <;> rfl

@[simp] theorem replies_free : (b.free p).replies = b.replies :=
  replies_note.trans (List.append_nil _)

@[simp] theorem replies_erase : (b.erase i).replies = b.replies := rfl

@[simp] theorem replies_hand : (b.hand r).replies = b.replies :=
  (replies_note (p := b.objects.size) (a := .handed r)).trans (List.append_nil _)

theorem replies_insert (h : b.requests.lookup i = none) : (b.insert i p).replies = b.replies := by
  rw [insert_eq h]
  exact (replies_note (p := p) (a := .recorded)).trans (List.append_nil _)

end Requests

/-- Deletions are no responses. -/
theorem replies_of_deletions (h : (written IsDeletion).rel s s') :
    s'.store.replies = s.store.replies :=
  Fallible.filterMap_of_appends h fun e he => by
    rw [show e.2 = .deleted from he]
    rfl

theorem phases_pending {q : RequestPtr} (h : s.store.requests.lookup i = some q) :
    s.phases i = .pending := by
  simp [phases, h]

theorem phases_idle (h : s.store.requests.lookup i = none) : s.phases i = .idle := by
  simp [phases, h]

/-- One id has changed its phase. -/
theorem phases_update {phase : Phase} (hi : s'.phases i = phase)
    (hother : ∀ j, j ≠ i → s'.store.requests.lookup j = s.store.requests.lookup j) :
    s'.phases = Function.update s.phases i phase := by
  funext j
  by_cases hj : j = i
  · rw [hj, Function.update_self, hi]
  · rw [Function.update_of_ne hj, phases, phases, hother j hj]

/-- The input of a step, under its id. -/
def word (L : Limits) (c : Choice) (s : Agent) : List (RequestId × Input) :=
  (processes L c s).toList.map fun x => (x.id, x)

/-- A step of the main thread is one of the brokers. -/
structure Brokered (L : Limits) (c : Choice) (s s' : Agent) : Prop where
  replies : s'.store.replies =
    s.store.replies ++ (broker.each RequestId).outputs s.phases (word L c s)
  phases : s'.pc.isFinal ∨ s'.phases = (broker.each RequestId).state s.phases (word L c s)

/-- A step that processes nothing. -/
theorem Brokered.nothing (hprocesses : processes L c s = none)
    (hreplies : s'.store.replies = s.store.replies)
    (hphases : s'.pc.isFinal ∨ s'.phases = s.phases) : Brokered L c s s' where
  replies := by simpa [word, hprocesses] using hreplies
  phases := by simpa [word, hprocesses] using hphases

/-- A step that processes an input. -/
theorem Brokered.processed {x : Input} {phase : Phase} {out : List Reply}
    (hprocesses : processes L c s = some x)
    (hstep : Broker.step (s.phases x.id) x = (phase, out))
    (hreplies : s'.store.replies = s.store.replies ++ out.map (x.id, ·))
    (hphases : s'.pc.isFinal ∨ s'.phases = Function.update s.phases x.id phase) :
    Brokered L c s s' where
  replies := by simpa [word, hprocesses, Machine.each, broker, hstep] using hreplies
  phases := by simpa [word, hprocesses, Machine.each, broker, hstep] using hphases

theorem processes_request (hpc : s.pc = .request p) (hp : s.store.objects.cell p = some r) :
    processes L c s = some (.request r (startOf L c p s)) := by
  simp [processes, hpc, hp]

theorem MainStep.brokered (hs : MainStep L c s s')
    (hend : s.pc = .stopped → s'.store.replies = s.store.replies) : Brokered L c s s' := by
  cases hs with
  | start hpc => exact .nothing (by simp [processes, hpc]) rfl (Or.inr rfl)
  | moves hm =>
    refine .nothing ?_ rfl (Or.inr rfl)
    unfold processes
    generalize s.pc = pc at hm
    cases hm <;> rfl
  | popped hpc =>
    exact .nothing (by simp [processes, hpc])
      (Requests.replies_note.trans (List.append_nil _)) (Or.inr rfl)
  | poppedResponse hpc | cleaned hpc => exact .nothing (by simp [processes, hpc]) rfl (Or.inr rfl)
  | exited _ hpc | finished _ hpc =>
    exact .nothing (by simp [processes, hpc]) (hend hpc) (Or.inl rfl)
  | @closed p r hpc hp ht =>
    have hstep : Broker.step (s.phases r.id) (.request r (startOf L c p s)) =
        (s.phases r.id, []) := by
      cases s.phases r.id <;> simp [Broker.step, ht]
    exact .processed (processes_request hpc hp) hstep (by simp)
      (Or.inr (phases_update rfl fun j hj => rfl))
  | @cancelled p q r d hpc hp ht hl =>
    have hstep : Broker.step (s.phases r.id) (.request r (startOf L c p s)) =
        (.idle, [⟨RT_Cancel, []⟩]) := by
      simp [Broker.step, phases_pending hl, ht]
    refine .processed (processes_request hpc hp) hstep
      (by simp [RequestAct.reply, Input.id, ht]) (Or.inr (phases_update ?_ fun j hj => ?_))
    · exact phases_idle (AList.lookup_erase _ _)
    · exact AList.lookup_erase_ne hj
  | @duplicate p q r hpc hp ht hl =>
    have hstep : Broker.step (s.phases r.id) (.request r (startOf L c p s)) = (.pending, []) := by
      simp [Broker.step, phases_pending hl, ht]
    exact .processed (processes_request hpc hp) hstep (by simp [RequestAct.reply])
      (Or.inr (phases_update (phases_pending hl) fun j hj => rfl))
  | @unknownCancel p r hpc hp ht hl =>
    have hstep : Broker.step (s.phases r.id) (.request r (startOf L c p s)) = (.idle, []) := by
      simp [Broker.step, phases_idle hl, ht]
    exact .processed (processes_request hpc hp) hstep (by simp)
      (Or.inr (phases_update (phases_idle hl) fun j hj => rfl))
  | @thrown p r e hpc hp ht hl hd =>
    have hstep : Broker.step (s.phases r.id) (.request r (startOf L c p s)) = (.idle, []) := by
      simp [Broker.step, phases_idle hl, ht, startOf, startUIForRequest_throws hp hd]
    exact .processed (processes_request hpc hp) hstep (by simp [RequestAct.reply])
      (Or.inr (phases_update (phases_idle hl) fun j hj => rfl))
  | @startFailed p r d hpc hp ht hl hd hc =>
    have hstep : Broker.step (s.phases r.id) (.request r (startOf L c p s)) =
        (.idle, [⟨RT_Action, Translator.Agent.answerToData 0 AgentErrorMsg.Error⟩]) := by
      simp [Broker.step, phases_idle hl, ht, startOf, startUIForRequest_fails hp hd hc]
    exact .processed (processes_request hpc hp) hstep
      (by simp [RequestAct.reply, startFailure, Input.id])
      (Or.inr (phases_update (phases_idle hl) fun j hj => rfl))
  | @clashed p r d u hpc hp ht hl hd hc hu =>
    have hstep : Broker.step (s.phases r.id) (.request r (startOf L c p s)) = (.idle, []) := by
      simp [Broker.step, phases_idle hl, ht, startOf, startUIForRequest_clashes hp hd hc hu]
    exact .processed (processes_request hpc hp) hstep (by simp) (Or.inl rfl)
  | @recorded p r d hpc hp ht hl hd hc hu =>
    have hstep : Broker.step (s.phases r.id) (.request r (startOf L c p s)) = (.pending, []) := by
      simp [Broker.step, phases_idle hl, ht, startOf, startUIForRequest_starts hp hd hc hu]
    refine .processed (processes_request hpc hp) hstep
      (by simp [Requests.replies_insert hl]) (Or.inr (phases_update ?_ fun j hj => ?_))
    · exact phases_pending (q := p) (by rw [Requests.lookup_insert hl]; exact if_pos rfl)
    · exact (Requests.lookup_insert hl j).trans (if_neg hj)
  | @answered q p r d hpc hl hp hid =>
    have hstep : Broker.step (s.phases q.id) (.response q) =
        (.idle, [⟨RT_Action, pluginData q.type⟩]) := by
      simp [Broker.step, phases_pending hl]
    refine .processed (x := .response q) (by simp [processes, hpc]) hstep
      (by simp [RequestAct.reply, answer, Input.id, hid])
      (Or.inr (phases_update ?_ fun j hj => ?_))
    · exact phases_idle (AList.lookup_erase _ _)
    · exact AList.lookup_erase_ne hj
  | @unmatched q d hpc hl =>
    have hstep : Broker.step (s.phases q.id) (.response q) = (.idle, []) := by
      simp [Broker.step, phases_idle hl]
    exact .processed (x := .response q) (by simp [processes, hpc]) hstep (by simp)
      (Or.inr (phases_update (phases_idle hl) fun j hj => rfl))

/-- **A step of the main thread** is one of the brokers. -/
theorem mainStep_brokered (h : Inv s) (hpc : s.pc.isFinal = false) :
    Brokered L c s (mainStep L c s) :=
  (mainStep_cases h hpc).brokered fun hstopped =>
    replies_of_deletions (mainStep_last L c hstopped)

/-! ### Where the inputs come from -/

/-- What is processed is what was in hand. -/
theorem word_inHand : (word L c s).filterMap (fun x => x.2.request?) = s.requestInHand.toList ∧
    (word L c s).filterMap (fun x => x.2.response?) = s.responseInHand.toList := by
  unfold word processes requestInHand responseInHand
  cases s.pc with
  | request p =>
    cases hp : s.store.objects.cell p <;> simp [hp, Input.request?, Input.response?]
  | _ => exact ⟨rfl, rfl⟩

theorem requestInHand_eq_none (h : ∀ p, s.pc ≠ .request p) : s.requestInHand = none := by
  unfold requestInHand
  split
  · next p hp => exact absurd hp (h p)
  · rfl

/-- What is in hand next is what is taken from the queue. -/
theorem mainStep_requestInHand (h : Inv s) (hpc : s.pc.isFinal = false) :
    (mainStep L c s).requestInHand = System.taking (.main c) s := by
  by_cases hpop : ∃ p rest, s.pc = .inner ∧ s.store.incomingRequests = p :: rest
  · obtain ⟨p, rest, hinner, hq⟩ := hpop
    rw [System.mainStep_popped hinner hq]
    simp [requestInHand, System.taking, hinner, hq]
  · have hempty := System.empty_of_not_popped hpop
    rw [System.taking_eq_none fun _ _ => hempty]
    refine requestInHand_eq_none fun p hp => ?_
    have hfinal : (mainStep L c s).pc.isFinal = false := by rw [hp]; rfl
    exact (System.mainStep_not_popped (mainStep_cases h hpc) hempty hfinal).2 p hp

/-- The response in hand next is taken from the queue. -/
theorem MainStep.responseInHand (hs : MainStep L c s s') (hfinal : s'.pc.isFinal = false) :
    s'.responseInHand.toList ++ s'.incomingResponses = s.incomingResponses := by
  cases hs with
  | clashed | exited | finished => simp [Pc.isFinal] at hfinal
  | moves hm =>
    generalize s.pc = pc at hm
    cases hm <;> rfl
  | poppedResponse _ hq => exact hq.symm
  | start | popped | closed | cancelled | duplicate | unknownCancel | thrown | startFailed
  | recorded | answered | unmatched | cleaned => rfl

/-- A request that is handed in is not the one in hand. -/
theorem requestInHand_hand (h : Inv s) (hs : s'.pc = s.pc) (hstore : s'.store = s.store.hand r) :
    s'.requestInHand = s.requestInHand := by
  unfold requestInHand
  rw [hs, hstore]
  cases hpc : s.pc with
  | request p =>
    obtain ⟨r', hr'⟩ := h.owned.processing.1 (pc_request_iff.1 hpc)
    have hlt := Heap.lt_size (h.owned.live.2 ⟨_, hr'⟩)
    exact if_neg (Nat.ne_of_lt hlt)
  | _ => rfl

end Agent

/-! ### The conversation -/

namespace Conversation
open Broker

variable {L : Limits} {w w' : Conversation} {l : System.Label}
  {cond : System.Label → Conversation → Prop}

/-- A run of the conversation is a run of the system. -/
theorem reachable_system (h : Reachable L cond w) : System.Reachable L Run.always w.system := by
  induction h with
  | start => exact .start
  | step l _ _ hs ih =>
    obtain ⟨s, hsys, rfl⟩ := Option.map_eq_some_iff.1 hs
    exact ih.step l trivial hsys

/-- Every run of the system is one of a conversation. -/
theorem exists_conversation {s : System} (h : System.Reachable L Run.always s) :
    ∃ w, Reachable L Run.always w ∧ w.system = s := by
  induction h with
  | start => exact ⟨new, .start, rfl⟩
  | @step s s' l _ _ hs ih =>
    obtain ⟨w, hw, rfl⟩ := ih
    exact ⟨_, hw.step l trivial (Option.map_eq_some_iff.2 ⟨s', hs, rfl⟩), rfl⟩

/-- So is every run of the process, with its threads interrupted anywhere. -/
theorem exists_conversation_process {s : Process} (h : Process.Reachable L Run.always s) :
    ∃ w, Reachable L Run.always w ∧ w.system = s.system :=
  exists_conversation (Process.locked h).1

/-- The conversation so far, with what is in hand and in the queues. -/
structure Account (w : Conversation) : Prop where
  replies : w.system.agent.store.replies =
    (broker.each RequestId).outputs (fun _ => .idle) w.processed.entries
  phases : w.system.agent.pc.isFinal ∨ w.system.agent.phases =
    (broker.each RequestId).state (fun _ => .idle) w.processed.entries
  requests : w.requests ++ w.system.agent.requestInHand.toList = w.system.taken
  responses : ∃ rest, w.responses ++ rest = w.posted ∧ (w.system.agent.pc.isFinal = false →
    rest = w.system.agent.responseInHand.toList ++ w.system.agent.incomingResponses)

theorem account_new : Account new where
  replies := rfl
  phases := Or.inr rfl
  requests := rfl
  responses := ⟨[], rfl, fun _ => rfl⟩

/-- A step in which the main thread stands still. -/
theorem Account.elsewhere (h : Account w) (hfinal : w.system.agent.pc.isFinal = false)
    (hprocessed : w'.processed.entries = w.processed.entries)
    (htaken : w'.system.taken = w.system.taken)
    (hreplies : w'.system.agent.store.replies = w.system.agent.store.replies)
    (hphases : w'.system.agent.phases = w.system.agent.phases)
    (hrequest : w'.system.agent.requestInHand = w.system.agent.requestInHand)
    (hresponse : w'.system.agent.responseInHand = w.system.agent.responseInHand)
    {new : List Response} (hposted : w'.posted = w.posted ++ new)
    (hqueue : w'.system.agent.incomingResponses = w.system.agent.incomingResponses ++ new) :
    Account w' where
  replies := by rw [hreplies, hprocessed, h.replies]
  phases := by
    rw [hphases, hprocessed]
    exact Or.inr (h.phases.resolve_left (by simp [hfinal]))
  requests := by
    rw [Conversation.requests, hprocessed, hrequest, htaken]
    exact h.requests
  responses := by
    obtain ⟨rest, hrest, hrun⟩ := h.responses
    refine ⟨rest ++ new, ?_, fun _ => ?_⟩
    · rw [Conversation.responses, hprocessed, hposted, ← hrest, List.append_assoc]
      rfl
    · rw [hrun hfinal, hresponse, hqueue, List.append_assoc]

/-- A step of the main thread. -/
theorem Account.main (h : Account w) (hinv : Inv w.system.agent)
    (hfinal : w.system.agent.pc.isFinal = false) (c : Choice) : Account
      { system := { w.system with
          agent := mainStep L c w.system.agent
          taken := w.system.taken ++ (System.taking (.main c) w.system.agent).toList }
        processed := ⟨w.processed.entries ++ word L c w.system.agent⟩
        posted := w.posted ++ [] } := by
  have hstep := mainStep_brokered (L := L) (c := c) hinv hfinal
  have hphases := h.phases.resolve_left (by simp [hfinal])
  obtain ⟨hrequest, hresponse⟩ := word_inHand (L := L) (c := c) (s := w.system.agent)
  refine ⟨?_, ?_, ?_, ?_⟩
  · show (mainStep L c w.system.agent).store.replies = _
    rw [hstep.replies, h.replies, hphases, Machine.outputs_append]
  · rw [Machine.state_append, ← hphases]
    exact hstep.phases
  · show (w.processed.entries ++ word L c w.system.agent).filterMap _ ++ _ = _
    rw [List.filterMap_append, hrequest, mainStep_requestInHand hinv hfinal]
    exact congrArg (· ++ _) h.requests
  · obtain ⟨rest, hrest, hrun⟩ := h.responses
    have hsplit : w.responses ++ (w.system.agent.responseInHand.toList ++
        w.system.agent.incomingResponses) = w.posted := hrun hfinal ▸ hrest
    refine ⟨w.system.agent.incomingResponses, ?_, fun hfinal' => ?_⟩
    · show (w.processed.entries ++ word L c w.system.agent).filterMap _ ++ _ = w.posted ++ []
      rw [List.filterMap_append, hresponse, List.append_nil, ← hsplit, List.append_assoc]
      rfl
    · exact ((mainStep_cases hinv hfinal).responseInHand hfinal').symm

theorem responseInHand_of_pc {a a' : Agent} (h : a'.pc = a.pc) :
    a'.responseInHand = a.responseInHand := by
  unfold responseInHand
  rw [h]

theorem requestInHand_of_pc {a a' : Agent} (h : a'.pc = a.pc) (hstore : a'.store = a.store) :
    a'.requestInHand = a.requestInHand := by
  unfold requestInHand
  rw [h, hstore]

theorem postStep_posts {a a' : Agent} {u : UIPtr} {ret : ℤ} {buttonClicked : Int32}
    (hs : postStep u ret buttonClicked a = some a') :
    a'.incomingResponses = a.incomingResponses ++ (posts u ret buttonClicked a).toList := by
  obtain ⟨ui, hu, -, rfl⟩ := postStep_spec hs
  simp [posts, hu, UIResponseHandler]

/-- What a step other than the main thread's pushes. -/
theorem pushed_of_elsewhere {s : System} {l : Agent.Label} (hl : ∀ e, l ≠ .talker e)
    (hnot : ∀ c, l ≠ .main c) {a : Agent} (hs : Agent.step L l s.agent = some a) :
    a.incomingResponses = s.agent.incomingResponses ++ (posting (.agent l) s).toList := by
  unfold Agent.step at hs
  split_ifs at hs
  cases l with
  | main c => exact absurd rfl (hnot c)
  | talker e => exact absurd rfl (hl e)
  | sigterm => exact Option.some.inj hs ▸ (List.append_nil _).symm
  | post u ret buttonClicked => exact postStep_posts hs
  | postThrows u =>
    obtain ⟨ui, -, -, rfl⟩ := throwStep_spec hs
    exact (List.append_nil _).symm
  | finish u =>
    obtain ⟨ui, -, -, rfl⟩ := finishStep_spec hs
    exact (List.append_nil _).symm

/-- **The account** is kept by every step. -/
theorem account (h : Reachable L cond w) : Account w := by
  induction h with
  | start => exact account_new
  | @step w w' l hr hl hs ih =>
    obtain ⟨s, hsys, rfl⟩ := Option.map_eq_some_iff.1 hs
    have hsound := System.sound_of_step (reachable_system hr) hsys
    cases l with
    | agent l =>
      obtain ⟨hl, a, ha, rfl⟩ := System.step_agent hsys
      obtain ⟨hfinal, ⟨c, rfl, rfl, -⟩ | ⟨hnot, helse⟩⟩ := System.agentStep_cases hsound.inv hl ha
      · exact ih.main hsound.inv hfinal c
      · have hnone : processing L (.agent l) w.system = none := by
          cases l with
          | main c => exact absurd rfl (hnot c)
          | _ => rfl
        have htaking : System.taking l w.system.agent = none :=
          System.taking_eq_none fun c hc => absurd hc (hnot c)
        refine ih.elsewhere hfinal (by simp [hnone]) (by simp [htaking]) ?_ ?_
          (requestInHand_of_pc helse.pc helse.store) (responseInHand_of_pc helse.pc) rfl
          (pushed_of_elsewhere hl hnot ha)
        · exact congrArg Requests.replies helse.store
        · funext i
          exact congrArg (fun b : Requests => if (b.requests.lookup i).isSome then Phase.pending
            else .idle) helse.store
    | thread e =>
      obtain ⟨hfinal, hstep⟩ := System.step_thread hsys
      obtain ⟨hagent, hstore⟩ := hstep.agent
      have hpc : s.agent.pc = w.system.agent.pc := by rw [hagent]
      have hqueue : s.agent.incomingResponses = w.system.agent.incomingResponses := by rw [hagent]
      refine ih.elsewhere hfinal (List.append_nil _) hstep.taken ?_ ?_ ?_ (responseInHand_of_pc hpc)
        rfl (hqueue.trans (List.append_nil _).symm)
      · rcases hstore with hstore | ⟨r, hstore⟩
        · exact congrArg Requests.replies hstore
        · rw [hstore, Requests.replies_hand]
      · funext i
        have hsame : s.agent.store.requests = w.system.agent.store.requests := by
          rcases hstore with hstore | ⟨r, hstore⟩
          · rw [hstore]
          · rw [hstore]
            rfl
        rw [phases, phases, hsame]
      · rcases hstore with hstore | ⟨r, hstore⟩
        · exact requestInHand_of_pc hpc hstore
        · exact requestInHand_hand hsound.inv hpc hstore

/-- What cynara was told with an id. -/
def told (w : Conversation) (i : RequestId) : List Reply :=
  (⟨w.system.agent.store.replies⟩ : Journal RequestId Reply).story i

theorem Account.told (h : Account w) (i : RequestId) :
    w.told i = broker.outputs .idle (w.processed.story i) := by
  rw [Conversation.told, h.replies]
  exact broker.each_outputs (fun _ => .idle) w.processed i

/-- What is said is what the brokers say. -/
structure Faithful (w : Conversation) : Prop where
  replies : w.system.agent.store.replies =
    (broker.each RequestId).outputs (fun _ => .idle) w.processed.entries
  told : ∀ i, w.told i = broker.outputs .idle (w.processed.story i)
  requests : w.requests <+: w.system.thread.handed
  responses : w.responses <+: w.posted

/-- **The agent is a broker.** In every run, also with exceptions, cynara is told, in order, what
one broker for each id would tell it; so ids do not interfere. The brokers get the requests in the
order in which they were handed in, and the answers in the order in which the dialogs gave them. -/
theorem faithful (h : Reachable L cond w) : Faithful w := by
  have haccount := account h
  obtain ⟨rest, hrest, -⟩ := (System.queued (reachable_system h)).taken
  obtain ⟨rest', hrest', -⟩ := haccount.responses
  refine ⟨haccount.replies, haccount.told, ?_, ⟨rest', hrest'⟩⟩
  calc w.requests
      <+: w.requests ++ w.system.agent.requestInHand.toList := List.prefix_append _ _
    _ = w.system.taken := haccount.requests
    _ <+: w.system.taken ++ rest := List.prefix_append _ _
    _ = w.system.thread.handed := hrest

/-- Cynara sends a message, and the thread hands it in. -/
def message (type : CynaraMsgType) (id : RequestId) : List System.Label :=
  [.thread (.getRequest (some ⟨type, id, some question⟩)), .thread (.construct none),
    .thread (.handle none), .thread .proceed]

/-- Two questions are asked. Then the second one is cancelled, and the first one asked again. -/
def cancelledRun : List System.Label :=
  [.agent tick, .thread (.agentInitialize true), .agent tick, .agent tick] ++
  message .ACTION 1 ++ message .ACTION 2 ++ List.replicate 11 (.agent tick) ++
  message .CANCEL 2 ++ message .ACTION 1 ++ List.replicate 12 (.agent tick)

/-- Both dialogs are answered. -/
def answeredRun : List System.Label :=
  [.agent (.post 1 0 6), .agent (.post 0 0 4)] ++ List.replicate 12 (.agent tick)

theorem faithful_late : ∃ w, Reachable .lp64 Run.always w ∧
    (w.told 1, w.told 2) = ([⟨RT_Action, pluginData .URT_YES_ONCE⟩], [⟨RT_Cancel, []⟩]) ∧
    Faithful w := by
  obtain ⟨w, hw, htold⟩ : ∃ w, Reachable .lp64 Run.always w ∧
      (w.told 1, w.told 2) = ([⟨RT_Action, pluginData .URT_YES_ONCE⟩], [⟨RT_Cancel, []⟩]) :=
    Run.Reachable.exists_of_exec (cancelledRun ++ answeredRun) (by decide +kernel)
  exact ⟨w, hw, htold, faithful hw⟩

/-! ### Silence -/

/-- What was processed stays processed. -/
theorem processed_grows (h : Run.Reachable (step L) cond w w') (i : RequestId) :
    w.processed.story i <+: w'.processed.story i := by
  induction h with
  | start => exact List.prefix_refl _
  | @step w₁ w₂ l _ _ hs ih =>
    obtain ⟨s, -, rfl⟩ := Option.map_eq_some_iff.1 hs
    refine ih.trans ?_
    unfold Journal.story
    rw [List.filter_append, List.map_append]
    exact List.prefix_append _ _

/-- **Silence.** While an id is not pending and no Action with it is processed, cynara is told
nothing with this id, whatever dialogs answer and whatever else is asked or cancelled. -/
theorem silent (h : Reachable L cond w) (h' : Run.Reachable (step L) cond w w') {i : RequestId}
    (hfinal : w.system.agent.pc.isFinal = false)
    (hidle : w.system.agent.store.requests.lookup i = none)
    (hno : ∀ r start, .request r start ∈ (w'.processed.story i).drop (w.processed.story i).length →
      r.type ≠ RT_Action) : w'.told i = w.told i := by
  have haccount := account h
  obtain ⟨new, hnew⟩ := processed_grows h' i
  rw [← hnew, List.drop_left] at hno
  rw [(account (h.trans h')).told, haccount.told, ← hnew, Machine.outputs_append]
  have hphase : broker.state .idle (w.processed.story i) = .idle := by
    rw [← broker.each_state (fun _ => .idle) w.processed i,
      ← haccount.phases.resolve_left (by simp [hfinal])]
    exact phases_idle hidle
  have hquiet : broker.outputs .idle new = [] := by
    refine Machine.outputs_eq_nil (P := fun phase => phase = .idle)
      (Q := fun x => ∀ r start, x = .request r start → r.type ≠ RT_Action) ?_ rfl
      fun x hx r start hr => hno r start (hr ▸ hx)
    rintro phase x rfl hx
    cases x with
    | response q => exact ⟨rfl, rfl⟩
    | request r start =>
      have hr := hx r start rfl
      cases ht : r.type with
      | RT_Action => exact absurd ht hr
      | RT_Cancel | RT_Close => simp [broker, Broker.step, ht]
  rw [hphase, hquiet, List.append_nil]

/-- The dialog of the cancelled question is answered. -/
theorem silent_late : ∃ w w', Reachable .lp64 Run.always w ∧
    Run.Reachable (step .lp64) Run.always w w' ∧
    w'.responses = [⟨2, .URT_YES_LIFE, 1⟩, ⟨1, .URT_YES_ONCE, 0⟩] ∧ w'.told 2 = w.told 2 := by
  obtain ⟨w, w', hw, hst, hexec, hst'⟩ :
      ∃ w w', Reachable .lp64 Run.always w ∧
        (w.system.agent.pc.isFinal, w.system.agent.store.requests.lookup 2,
          (w.processed.story 2).length) = (false, none, 2) ∧
        Run.exec (step .lp64) Run.always answeredRun w = some w' ∧
        (w'.responses, (w'.processed.story 2).drop 2) =
          ([⟨2, .URT_YES_LIFE, 1⟩, ⟨1, .URT_YES_ONCE, 0⟩], [.response ⟨2, .URT_YES_LIFE, 1⟩]) :=
    Run.exists_exec_append cancelledRun answeredRun (by decide +kernel) (by decide +kernel)
  simp only [Prod.mk.injEq] at hst hst'
  have h' : Run.Reachable (step .lp64) Run.always w w' := .of_exec .start hexec
  refine ⟨w, w', hw, h', hst'.1, silent hw h' hst.1 hst.2.1 fun r start hr => ?_⟩
  rw [hst.2.2, hst'.2] at hr
  simp at hr

end Conversation

end AskUser
