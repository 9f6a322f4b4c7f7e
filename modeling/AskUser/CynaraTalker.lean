import AskUser.AgentInvariant

/-!
# The thread of `CynaraTalker`

`CynaraTalker::run` (`CynaraTalker.cpp`), one statement at a time, next to the rest of the agent.

* `Thread` is the state of the thread: the statement that is next (`Point`), and the variable `data`
  with the buffers that cynara allocated and `run` has to free;
* an `Event` is one statement, with what the surroundings decide there: the results of cynara, and
  whether the constructor of `Request` or the handler throws. `TypeException` is private to the
  file, so it comes from `cynaraType2AgentType` only;
* `System` puts the agent next to the thread. All other steps of the agent are as before, and
  `taken` records what the main thread takes out of the queue.

In the agent alone a message is one step (`talkerStep`); `System.refines` says that this is what the
statements come to, unless an exception interrupts them.
-/

namespace AskUser
namespace CynaraTalker
open ByteText Objects Agent RequestType

abbrev BufferPtr := ℕ

/-- What happens to a buffer of `cynara_agent_get_request`. -/
inductive BufferAct
  /-- stored in `data`, with a message of this type -/
  | obtained (type : CynaraMsgType)
  /-- by the constructor of `Request` -/
  | copied
  | freed
  deriving DecidableEq

/-- What `cynara_agent_get_request` stores. Without data the pointer is null. -/
structure Message where
  type : CynaraMsgType
  id : RequestId
  data : Option Bytes
  deriving DecidableEq

/-- The exceptions that code outside of `CynaraTalker.cpp` can throw. -/
inductive Thrown
  | stdException
  | unknown
  deriving DecidableEq

/-- The statement of `run` that is next. -/
inductive Point
  | agentInitialize
  /-- the Close before the early `return` -/
  | initFailed
  | getRequest
  /-- `new Request` -/
  | construct (type : CynaraMsgType) (id : RequestId)
  /-- `m_requestHandler` -/
  | handle (r : Request)
  /-- `free(data); data = nullptr` -/
  | release
  /-- the Close before `break` -/
  | receiveFailed
  /-- `free(data)` after the `try` block -/
  | leave
  /-- `cynara_agent_finish` -/
  | finish
  | setValue
  | returned
  /-- a buffer was used or freed after it had been freed -/
  | crashed
  deriving DecidableEq

structure Thread where
  point : Point
  data : Option BufferPtr
  buffers : Heap Bytes
  journal : Journal BufferPtr BufferAct
  /-- how often `m_threadFinished` was set -/
  promises : ℕ
  /-- the messages of `cynara_agent_get_request` so far -/
  received : List Message
  /-- `cynara_agent_initialize` or `cynara_agent_get_request` returned an error -/
  failed : Bool
  /-- the requests that were handed to `m_requestHandler`, but for those where it threw -/
  handed : List Request

/-- A statement, and what the surroundings decide there. -/
inductive Event
  | agentInitialize (success : Bool)
  | getRequest (result : Option Message)
  | construct (thrown : Option Thrown)
  | handle (thrown : Option Thrown)
  /-- any other statement -/
  | proceed
  deriving DecidableEq

namespace Thread

/-- The thread before `run`. -/
def new : Thread := ⟨.agentInitialize, none, .empty, .empty, 0, [], false, []⟩

def story (t : Thread) (b : BufferPtr) : List BufferAct := t.journal.story b

/-- `cynara_agent_get_request` succeeds. -/
def obtain (t : Thread) (m : Message) : Thread :=
  match m.data with
  | none => { t with data := none, received := t.received ++ [m] }
  | some bytes =>
    { t with
      data := some t.buffers.size
      buffers := t.buffers.alloc bytes
      journal := t.journal.note t.buffers.size (.obtained m.type)
      received := t.received ++ [m] }

/-- The constructor of `PluginData` copies the buffer. -/
def copyData (t : Thread) : Option (PluginData × Thread) :=
  match t.data with
  | none => some ([], t)
  | some b => (t.buffers.cell b).map fun bytes =>
    (bytes, { t with journal := t.journal.note b .copied })

/-- `free(data)`. -/
def freeData (t : Thread) : Option Thread :=
  match t.data with
  | none => some t
  | some b => (t.buffers.cell b).map fun _ =>
    { t with buffers := t.buffers.free b, journal := t.journal.note b .freed }

variable {t t' : Thread} {bytes : PluginData}

theorem obtain_frame (t : Thread) (m : Message) : t.obtain m =
    { t with
      data := (t.obtain m).data
      buffers := (t.obtain m).buffers
      journal := (t.obtain m).journal
      received := t.received ++ [m] } := by
  unfold obtain
  cases m.data <;> rfl

theorem copyData_cases (h : t.copyData = some (bytes, t')) :
    (t.data = none ∧ bytes = [] ∧ t' = t) ∨
      ∃ b, t.data = some b ∧ t.buffers.cell b = some bytes ∧
        t' = { t with journal := t.journal.note b .copied } := by
  unfold copyData at h
  split at h
  · next hdata =>
    simp only [Option.some.injEq, Prod.mk.injEq] at h
    exact Or.inl ⟨hdata, h.1.symm, h.2.symm⟩
  · next b hdata =>
    obtain ⟨_, hcell, heq⟩ := Option.map_eq_some_iff.1 h
    simp only [Prod.mk.injEq] at heq
    obtain ⟨rfl, rfl⟩ := heq
    exact Or.inr ⟨b, hdata, hcell, rfl⟩

theorem freeData_cases (h : t.freeData = some t') :
    (t.data = none ∧ t' = t) ∨
      ∃ b, t.data = some b ∧ (t.buffers.cell b).isSome ∧
        t' = { t with buffers := t.buffers.free b, journal := t.journal.note b .freed } := by
  unfold freeData at h
  split at h
  · next hdata => exact Or.inl ⟨hdata, (Option.some.inj h).symm⟩
  · next b hdata =>
    obtain ⟨bytes, hcell, rfl⟩ := Option.map_eq_some_iff.1 h
    exact Or.inr ⟨b, hdata, by rw [hcell]; rfl, rfl⟩

theorem copyData_frame (h : t.copyData = some (bytes, t')) :
    t' = { t with journal := t'.journal } := by
  obtain ⟨-, -, rfl⟩ | ⟨b, -, -, rfl⟩ := copyData_cases h
  · rfl
  · rfl

theorem freeData_frame (h : t.freeData = some t') :
    t' = { t with buffers := t'.buffers, journal := t'.journal } := by
  obtain ⟨-, rfl⟩ | ⟨b, -, -, rfl⟩ := freeData_cases h
  · rfl
  · rfl

end Thread

end CynaraTalker

open CynaraTalker Agent RequestType

/-- The agent, and its thread that talks to cynara. -/
structure System where
  agent : Agent
  thread : CynaraTalker.Thread
  /-- the requests that the main thread has taken from `m_incomingRequests` -/
  taken : List Request

namespace System

def new : System := ⟨.new, .new, []⟩

/-- The request that says that there will be no other. -/
def closeRequest : Request := ⟨RT_Close, 0, []⟩

/-- `m_requestHandler(request)`. -/
def hand (s : System) (r : Request) : System :=
  { s with
    agent := requestHandler s.agent r
    thread.handed := s.thread.handed ++ [r] }

/-- The thread goes on to another point, with `stage` for what the agent knows of it. -/
def goto (s : System) (point : Point) (stage : TalkerState) : System :=
  { s with agent.talker := stage, thread.point := point }

/-- One statement of `CynaraTalker::run`. -/
def threadStep (e : Event) (s : System) : Option System :=
  match e, s.thread.point with
  | .agentInitialize success, .agentInitialize =>
    if s.agent.talker = .initializing then
      if success then some (s.goto .getRequest .receiving)
      else some { s with thread.point := .initFailed, thread.failed := true }
    else none
  | .proceed, .initFailed => some ((s.hand closeRequest).goto .returned .returned)
  | .getRequest none, .getRequest =>
    some { s with thread.point := .receiveFailed, thread.failed := true }
  | .proceed, .receiveFailed => some ((s.hand closeRequest).goto .leave .closing)
  | .getRequest (some m), .getRequest =>
    some { s with thread := { s.thread.obtain m with point := .construct m.type m.id } }
  | .construct thrown, .construct type id =>
    match cynaraType2AgentType type, thrown with
    -- `TypeException`, which is caught in the loop
    | none, none => some { s with thread.point := .release }
    | none, some _ => none
    | some type, none =>
      match s.thread.copyData with
      | none => some { s with thread.point := .crashed }
      | some (bytes, t) => some { s with thread := { t with point := .handle ⟨type, id, bytes⟩ } }
    | some _, some _ => some (s.goto .leave .closing)
  | .handle none, .handle r => some { s.hand r with thread.point := .release }
  | .handle (some _), .handle _ => some (s.goto .leave .closing)
  | .proceed, .release =>
    match s.thread.freeData with
    | none => some { s with thread.point := .crashed }
    | some t => some { s with thread := { t with data := none, point := .getRequest } }
  | .proceed, .leave =>
    match s.thread.freeData with
    | none => some { s with thread.point := .crashed }
    | some t => some { s with thread := { t with point := .finish } }
  | .proceed, .finish => some { s with thread.point := .setValue }
  | .proceed, .setValue =>
    some { s.goto .returned .finished with thread.promises := s.thread.promises + 1 }
  | _, _ => none

/-- The request that a step of the agent takes from `m_incomingRequests`, if it does. -/
def taking (l : Agent.Label) (a : Agent) : Option Request :=
  match l, a.pc, a.store.incomingRequests with
  | .main _, .inner, p :: _ => a.store.objects.cell p
  | _, _, _ => none

inductive Label
  | agent (l : Agent.Label)
  | thread (e : Event)

/-- A step of the agent or a statement of the thread. The thread's part of the agent's own steps is
left to the thread. -/
def step (L : Limits) (l : Label) (s : System) : Option System :=
  match l with
  | .agent (.talker _) => none
  | .agent l => (Agent.step L l s.agent).map fun a =>
    { s with agent := a, taken := s.taken ++ (taking l s.agent).toList }
  | .thread e => if s.agent.pc.isFinal then none else threadStep e s

/-- The states of the runs whose steps all satisfy a condition. -/
abbrev Reachable (L : Limits) (cond : Label → System → Prop) : System → Prop :=
  Run.Reachable (step L) cond new

end System

end AskUser
