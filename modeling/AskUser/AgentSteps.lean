import AskUser.Agent
import AskUser.Lib.Run

/-!
# The steps of the agent

`Agent::run` as a transition system. The main thread goes from one call to the next; the thread of
`CynaraTalker` and the threads of the dialogs push to the two queues, and finish, in between.

A call of the main thread is one step. While it runs, the other threads only append to queues that
it does not look at, or finish, which a `dismiss` sees exactly as if it had happened before the
call or after it; so every interleaving has the effect of one of these. The queues themselves are
read under the lock, in steps of their own.
-/

namespace AskUser.Agent
open RequestType

variable (L : Limits)

/-! ### The main thread -/

/-- An exception that leaves a destructor is `std::terminate`. -/
def noexcept {α : Type} (x : AgentM α) : AgentM α := fun s =>
  match x s with
  | .error (.exception _) s => .error .terminate s
  | r => r

/-- The next call of the main thread, with the point it leads to. -/
def call (c : Choice) : Pc → AgentM Pc
  | .start => do
    modify fun s => { s with talker := .initializing }
    return .outer
  | .outer => return if (← get).stopFlag then .stopped else .waiting
  | .waiting => return if (← get).stopFlag then .stopped else .inner
  | .inner => do
    match (← get).store.incomingRequests with
    | p :: rest =>
      onRequests fun b => { b with incomingRequests := rest }.note p .popped
      return .request p
    | [] => return if (← get).incomingResponses = [] then .outer else .responses
  | .request p => do
    let r ← request p
    if r.type = RT_Close then
      delete p
      modify fun s => { s with stopFlag := true }
      return .outer
    else
      processCynaraRequest L c p
      return .responses
  | .responses => do
    match (← get).incomingResponses with
    | r :: rest =>
      modify fun s => { s with
        incomingResponses := rest
        answers := s.answers.note r.postedBy (.popped r) }
      return .response r
    | [] => return .cleanup
  | .response r => do
    processUIResponse r
    return .cleanup
  | .cleanup => do
    let _ ← cleanupUIThreads
    return .inner
  | .stopped => return if ← noexcept finish then .finished else .exited
  | .finished => return .finished
  | .exited => return .exited
  | .crashed a => return .crashed a

/-- The state after a call. An exception ends `run`, and `main` destroys the agent. -/
def resume : EStateM.Result Abort Agent Pc → Agent
  | .ok pc s => { s with pc := pc }
  | .error (.exception e) s => { s with exception := some e, pc := .stopped }
  | .error a s => { s with pc := .crashed a }

def mainStep (c : Choice) (s : Agent) : Agent := resume (call L c s.pc s)

/-! ### The other threads -/

def requestHandler (s : Agent) (r : Request) : Agent := { s with store := s.store.hand r }

/-- `cynara_agent_msg_type`. -/
inductive CynaraMsgType
  | ACTION
  | CANCEL
  | other (n : ℤ)
  deriving DecidableEq

/-- `none` is the `TypeException`. -/
def cynaraType2AgentType : CynaraMsgType → Option RequestType
  | .ACTION => some RT_Action
  | .CANCEL => some RT_Cancel
  | .other _ => none

/-- What the thread of `CynaraTalker` meets. -/
inductive TalkerEvent
  | initialized (success : Bool)
  | received (type : CynaraMsgType) (id : RequestId) (data : PluginData)
  | receiveFailed
  /-- an exception ends the loop -/
  | threw
  | closed
  deriving DecidableEq

/-- The request that an event hands to the agent, if any. -/
def TalkerEvent.request : TalkerEvent → Option Request
  | .initialized success => if success then none else some ⟨RT_Close, 0, []⟩
  | .received type id data => (cynaraType2AgentType type).map fun type => ⟨type, id, data⟩
  | .receiveFailed => some ⟨RT_Close, 0, []⟩
  | .threw | .closed => none

def talkerStep (e : TalkerEvent) (s : Agent) : Option Agent :=
  match e, s.talker with
  | .initialized true, .initializing => some { s with talker := .receiving }
  | .initialized false, .initializing =>
    some { requestHandler s ⟨RT_Close, 0, []⟩ with talker := .returned }
  | .received type id data, .receiving =>
    match cynaraType2AgentType type with
    | some type => some (requestHandler s ⟨type, id, data⟩)
    | none => some s
  | .receiveFailed, .receiving =>
    some { requestHandler s ⟨RT_Close, 0, []⟩ with talker := .closing }
  -- nobody tells the agent
  | .threw, .receiving => some { s with talker := .closing }
  | .closed, .closing => some { s with talker := .finished }
  | _, _ => none

def UIResponseHandler (s : Agent) (id : RequestId) (type : UIResponseType) (u : UIPtr) : Agent :=
  { s with
    incomingResponses := s.incomingResponses ++ [⟨id, type, u⟩]
    answers := s.answers.note u (.posted ⟨id, type, u⟩) }

/-- The thread of a dialog gives its response to the callback. -/
def postStep (u : UIPtr) (ret : ℤ) (buttonClicked : Int32) (s : Agent) : Option Agent :=
  match s.dialogs.objects.cell u with
  | some ui =>
    if ui.thread = .running then
      some (UIResponseHandler { s with dialogs := s.dialogs.put u { ui with thread := .posted } }
        ui.requestId (AskUINotificationBackend.response ret buttonClicked) u)
    else none
  | none => none

/-- The callback throws before it has pushed the response, and the thread goes on without it. -/
def throwStep (u : UIPtr) (s : Agent) : Option Agent :=
  match s.dialogs.objects.cell u with
  | some ui =>
    if ui.thread = .running then
      some { s with
        dialogs := s.dialogs.put u { ui with thread := .posted }
        answers := s.answers.note u .threw }
    else none
  | none => none

/-- The thread of a dialog sets its promise. -/
def finishStep (u : UIPtr) (s : Agent) : Option Agent :=
  match s.dialogs.objects.cell u with
  | some ui =>
    if ui.thread = .posted then
      some { s with dialogs := s.dialogs.put u { ui with thread := .finished } }
    else none
  | none => none

/-! ### The system -/

inductive Label
  | main (c : Choice)
  | talker (e : TalkerEvent)
  | post (u : UIPtr) (ret : ℤ) (buttonClicked : Int32)
  | postThrows (u : UIPtr)
  | finish (u : UIPtr)
  | sigterm

/-- The run is over: `main` has returned, or the process was ended. -/
def Pc.isFinal : Pc → Bool
  | .finished | .exited | .crashed _ => true
  | _ => false

def step (l : Label) (s : Agent) : Option Agent :=
  if s.pc.isFinal then none
  else match l with
    | .main c => some (mainStep L c s)
    | .talker e => talkerStep e s
    | .post u ret buttonClicked => postStep u ret buttonClicked s
    | .postThrows u => throwStep u s
    | .finish u => finishStep u s
    | .sigterm => some { s with stopFlag := true }

/-- The states of the runs whose steps all satisfy a condition. -/
abbrev Reachable (cond : Label → Agent → Prop) : Agent → Prop :=
  Run.Reachable (step L) cond new

/-- The request that an event hands in. -/
def RequestAct.handedRequest : RequestAct → Option Request
  | .handed r => some r
  | _ => none

/-- The responses in a story. -/
def responses (story : List RequestAct) : List Sent :=
  story.filterMap fun a => match a with
    | .sent x => some x
    | _ => none

/-- Every Action so far with this id was sent a response. -/
def Answered (s : Agent) (id : RequestId) : Prop :=
  ∀ e ∈ s.store.journal.entries, ∀ r ∈ e.2.handedRequest, r.type = RT_Action → r.id = id →
    responses (s.store.story e.1) ≠ []

instance (s : Agent) (id : RequestId) : Decidable (s.Answered id) :=
  inferInstanceAs (Decidable (∀ e ∈ s.store.journal.entries, ∀ r ∈ e.2.handedRequest,
    r.type = RT_Action → r.id = id → responses (s.store.story e.1) ≠ []))

/-- Cynara's side of the protocol: it uses the id of an Action again once it was sent a response. -/
def Disciplined : Label → Agent → Prop
  | .talker (.received .ACTION id _), s => s.Answered id
  | _, _ => True

instance : (l : Label) → (s : Agent) → Decidable (Disciplined l s)
  | .talker (.received .ACTION id _), s => inferInstanceAs (Decidable (s.Answered id))
  | .talker (.received .CANCEL _ _), _ => .isTrue trivial
  | .talker (.received (.other _) _ _), _ => .isTrue trivial
  | .talker (.initialized _), _ => .isTrue trivial
  | .talker .receiveFailed, _ => .isTrue trivial
  | .talker .threw, _ => .isTrue trivial
  | .talker .closed, _ => .isTrue trivial
  | .main _, _ => .isTrue trivial
  | .post .., _ => .isTrue trivial
  | .postThrows _, _ => .isTrue trivial
  | .finish _, _ => .isTrue trivial
  | .sigterm, _ => .isTrue trivial

/-- The id for which a step starts a dialog, if it does: an Action is processed, its id is not in
`m_requests`, its data can be decoded, and the dialog can be put on the screen. -/
def startsDialog : Label → Agent → Option RequestId
  | .main c, s =>
    match s.pc with
    | .request p => (s.store.objects.cell p).bind fun r =>
        if r.type = RT_Action ∧ s.store.requests.lookup r.id = none ∧
          (Translator.Agent.dataToRequest L c.strSize r.data).isOk ∧ c.createUI then some r.id
        else none
    | _ => none
  | _, _ => none

/-- A step of the main thread in which any dialog can be put on the screen. -/
def tick : Label := .main ⟨0, 0, true⟩

/-- The data of a request that asks about three empty strings. -/
def question : PluginData := Translator.Plugin.requestToData [] [] []

end AskUser.Agent
