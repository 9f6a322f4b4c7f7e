import AskUser.CynaraTalker
import AskUser.Lib.Mutex

/-!
# The locks and the condition variable

`Agent::run`, `requestHandler` and `UIResponseHandler` (`Agent.cpp`) with `m_mutex` and `m_event`,
and `CynaraTalker::run` and `sendResponse` (`CynaraTalker.cpp`) with the mutex of `CynaraTalker`.

* `code` is the text of `run`, statement by statement, and `Instruction` says what a statement does.
  The calls that the main thread makes without the lock are those of `Agent.call`;
* the threads that push go through the three statements of their handler (`Handler`): the
  constructor of `lock`, the push, and `notify_one`. The destructor of `lock` is the fourth, which
  an exception of the handler comes to at once;
* a call of the main thread that comes to `sendResponse` constructs its `mlock` first (`sending`),
  and the thread of `CynaraTalker` constructs one for the end of its `run` (`closing`);
* `Process` puts this next to the `System`, whose steps are what the statements do to the data.

A mutex that is misused, or `front` of an empty queue, is undefined and leads to
`Statement.undefined`. `wait_for` can return at any time: because of a `notify_one`, after its
second, or for no reason.
-/

namespace AskUser
namespace Process
open Agent CynaraTalker Locks

/-- The threads that lock a mutex. -/
inductive ThreadId
  | main
  | talker
  | dialog (u : UIPtr)
  deriving DecidableEq

/-- The statement of the main thread that is next. -/
inductive Statement
  | start
  /-- `while (!m_stopFlag)` -/
  | whileRunning
  /-- `std::unique_lock<std::mutex> lock(m_mutex)` -/
  | construct
  | waitFor
  /-- in `wait_for`, without the mutex -/
  | asleep (notified : Bool)
  /-- at the end of `wait_for` -/
  | relock
  /-- `if (m_stopFlag)` -/
  | ifStopped
  /-- `while (!m_incomingRequests.empty() ||` -/
  | whileRequests
  /-- `|| !m_incomingResponses.empty())` -/
  | orResponses
  /-- `if (!m_incomingRequests.empty())` -/
  | ifRequest
  | popRequest
  | unlockForRequest (p : RequestPtr)
  /-- the Close, or `processCynaraRequest` -/
  | request (p : RequestPtr)
  | lockAfterRequest
  /-- `if (!m_incomingResponses.empty())` -/
  | ifResponse
  | popResponse
  | unlockForResponse (r : Response)
  /-- `processUIResponse` -/
  | response (r : Response)
  | lockAfterResponse
  | unlockForCleanup
  /-- `cleanupUIThreads` -/
  | cleanup
  | lockAfterCleanup
  /-- the end of the body of the outer loop, where `lock` is destroyed -/
  | endOfBody
  /-- out of the outer loop by `break` or by an exception, where `lock` is destroyed -/
  | endOfRun
  /-- the destructor of the agent -/
  | finish
  | ended
  | undefined
  deriving DecidableEq

/-- Where the agent is, in the terms of `Agent.Pc`. -/
def Statement.pc : Statement → Pc
  | .start => .start
  | .whileRunning | .endOfBody => .outer
  | .construct | .waitFor | .asleep _ | .relock | .ifStopped => .waiting
  | .whileRequests | .orResponses | .ifRequest | .popRequest | .lockAfterCleanup => .inner
  | .unlockForRequest p | .request p => .request p
  | .lockAfterRequest | .ifResponse | .popResponse => .responses
  | .unlockForResponse r | .response r => .response r
  | .lockAfterResponse | .unlockForCleanup | .cleanup => .cleanup
  | .endOfRun | .finish => .stopped
  | .ended | .undefined => .exited

/-- What a statement does, with the statement after it. -/
inductive Instruction
  /-- `lock.lock()`, or the constructor of `lock` -/
  | lock (next : Statement)
  /-- `lock.unlock()`, or the beginning of `wait_for` -/
  | unlock (next : Statement)
  /-- the destructor of `lock` -/
  | destroy (next : Statement)
  | test (next : Agent → Statement)
  /-- `front` and `pop`; an empty queue has no front -/
  | pop (next : System → Option (System × Statement))
  /-- a call without the lock; what follows depends on where it leads -/
  | call (next : Pc → Statement)
  | none

/-- After an exception `lock` is destroyed; otherwise the process has ended. -/
def left : Pc → Statement
  | .stopped => .endOfRun
  | _ => .ended

def afterRequest : Pc → Statement
  -- a Close leads out of the inner loop, by `break`
  | .outer => .endOfBody
  | .responses => .lockAfterRequest
  | pc => left pc

def afterResponse : Pc → Statement
  | .cleanup => .lockAfterResponse
  | pc => left pc

def afterCleanup : Pc → Statement
  | .inner => .lockAfterCleanup
  | pc => left pc

def popRequest (s : System) : Option (System × Statement) :=
  match s.agent.store.incomingRequests with
  | [] => none
  | p :: rest => some ({ s with
      agent.store := { s.agent.store with incomingRequests := rest }.note p .popped
      taken := s.taken ++ (s.agent.store.objects.cell p).toList }, .unlockForRequest p)

def popResponse (s : System) : Option (System × Statement) :=
  match s.agent.incomingResponses with
  | [] => none
  | r :: rest => some ({ s with
      agent.incomingResponses := rest
      agent.answers := s.agent.answers.note r.postedBy (.popped r) }, .unlockForResponse r)

/-- The text of `run`. -/
def code : Statement → Instruction
  | .start => .call fun _ => .whileRunning
  | .whileRunning => .test fun a => if a.stopFlag then .finish else .construct
  | .construct => .lock .waitFor
  | .waitFor => .unlock (.asleep false)
  | .asleep _ => .test fun _ => .relock
  | .relock => .lock .ifStopped
  | .ifStopped => .test fun a => if a.stopFlag then .endOfRun else .whileRequests
  | .whileRequests => .test fun a =>
    if a.store.incomingRequests = [] then .orResponses else .ifRequest
  | .orResponses => .test fun a => if a.incomingResponses = [] then .endOfBody else .ifRequest
  | .ifRequest => .test fun a =>
    if a.store.incomingRequests = [] then .ifResponse else .popRequest
  | .popRequest => .pop popRequest
  | .unlockForRequest p => .unlock (.request p)
  | .request _ => .call afterRequest
  | .lockAfterRequest => .lock .ifResponse
  | .ifResponse => .test fun a =>
    if a.incomingResponses = [] then .unlockForCleanup else .popResponse
  | .popResponse => .pop popResponse
  | .unlockForResponse r => .unlock (.response r)
  | .response _ => .call afterResponse
  | .lockAfterResponse => .lock .unlockForCleanup
  | .unlockForCleanup => .unlock .cleanup
  | .cleanup => .call afterCleanup
  | .lockAfterCleanup => .lock .whileRequests
  | .endOfBody => .destroy .whileRunning
  | .endOfRun => .destroy .finish
  | .finish => .call fun _ => .ended
  | .ended | .undefined => .none

/-- Where a thread is in `requestHandler` or `UIResponseHandler`. -/
inductive Handler
  | outside
  /-- the push is next -/
  | locked
  /-- `m_event.notify_one()` is next -/
  | pushed
  /-- the destructor of `lock` is next -/
  | notified
  deriving DecidableEq

/-- The main thread will come to `wait_for` before it looks at the queues. -/
def Statement.unaware : Statement → Bool
  | .start | .whileRunning | .construct | .waitFor | .endOfBody => true
  | _ => false

/-- The call of the main thread that is next comes to `m_cynaraTalker.sendResponse`: a Cancel of a
pending request is processed, or an Action for which no dialog can be started, or the response about
a pending request. -/
def sendsResponse (L : Limits) (c : Choice) (a : Agent) : Bool :=
  match a.pc with
  | .request p => (a.store.objects.cell p).any fun r =>
    match r.type with
    | .RT_Cancel => (a.store.requests.lookup r.id).isSome
    | .RT_Action => (a.store.requests.lookup r.id).isNone &&
        (Translator.Agent.dataToRequest L c.strSize r.data).isOk && !c.createUI
    | .RT_Close => false
  | .response r => (a.store.requests.lookup r.id).isSome
  | _ => false

end Process

open Agent CynaraTalker Locks Process

/-- The system, with the locks and where its threads are. -/
structure Process where
  system : System
  mutex : Mutex ThreadId
  statement : Statement
  /-- `lock.owns_lock()` -/
  owns : Bool
  handler : ThreadId → Handler
  /-- Something was pushed since the main thread last came to look at the queues, when it was
  neither doing so nor in `wait_for`. No statement reads it. -/
  missed : Bool
  /-- `CynaraTalker::m_mutex` -/
  talkerMutex : Mutex ThreadId
  /-- The call of the main thread is in `sendResponse`, past the constructor of `mlock`; what it
  meets is settled. -/
  sending : Option Choice
  /-- The thread of `CynaraTalker` is past the constructor of its `mlock`, and not past the
  destructor. -/
  closing : Bool

namespace Process

def new : Process :=
  ⟨.new, .free, .start, false, fun _ => .outside, false, .free, none, false⟩

variable (s : Process)

def goto (st : Statement) : Process :=
  { s with
    system.agent.pc := st.pc
    statement := st
    missed := s.missed && st ≠ .whileRequests }

def undefined : Process := { s with statement := .undefined }

/-! ### The main thread -/

/-- The lock of the main thread, which throws if `lock` owns the mutex already. -/
def lock (next : Statement) : Option Process :=
  if s.owns then some s.undefined
  else match s.mutex.lock .main with
    | .done m => some { s.goto next with mutex := m, owns := true }
    | .blocked => none
    | .misused => some s.undefined

/-- The unlock of the main thread, which throws unless `lock` owns the mutex. -/
def unlock (next : Statement) : Process :=
  if s.owns then match s.mutex.unlock .main with
    | .done m => { s.goto next with mutex := m, owns := false }
    | _ => s.undefined
  else s.undefined

/-- A call, which leads where `next` says. -/
def called (L : Limits) (c : Choice) (next : Pc → Statement) : Process :=
  let a := resume (call L c s.system.agent.pc s.system.agent)
  { s with system.agent := a, statement := next a.pc }

/-- `m_thread.join()` in `finish` waits until the thread of `CynaraTalker`, which has set its
promise, has also destroyed its `mlock`. -/
def joins : Bool := s.statement = .finish && s.system.agent.talker = .finished && s.closing

/-- A call without the lock. One that comes to `sendResponse` locks the mutex of `CynaraTalker`, and
what it does is seen when it unlocks it. -/
def callStep (L : Limits) (c : Choice) (next : Pc → Statement) : Option Process :=
  match s.sending with
  | some c' =>
    if c = c' then match s.talkerMutex.unlock .main with
      | .done m => some { s.called L c next with talkerMutex := m, sending := none }
      | _ => some s.undefined
    else none
  | none =>
    if s.joins then none
    else if sendsResponse L c s.system.agent then match s.talkerMutex.lock .main with
      | .done m => some { s with talkerMutex := m, sending := some c }
      | .blocked => none
      | .misused => some s.undefined
    else some (s.called L c next)

def mainStep (L : Limits) (c : Choice) : Option Process :=
  match code s.statement with
  | .lock next => s.lock next
  | .unlock next => some (s.unlock next)
  | .destroy next => some (if s.owns then s.unlock next else s.goto next)
  | .test next => some (s.goto (next s.system.agent))
  | .pop next =>
    match next s.system with
    | none => some s.undefined
    | some (sys, st) => some ({ s with system := sys }.goto st)
  | .call next => s.callStep L c next
  | .none => none

/-! ### The handlers -/

/-- The points of `CynaraTalker::run` that call `m_requestHandler`. -/
def hands : Point → Bool
  | .initFailed | .receiveFailed | .handle _ => true
  | _ => false

/-- The thread is about to call its handler, or inside it and has not pushed. -/
def calling : ThreadId → Bool
  | .main => false
  | .talker => hands s.system.thread.point
  | .dialog u => (s.system.agent.dialogs.objects.cell u).any fun ui => ui.thread = .running

def setHandler (t : ThreadId) (h : Handler) : Process :=
  { s with handler := fun t' => if t' = t then h else s.handler t' }

def lockStep (t : ThreadId) : Option Process :=
  if s.calling t ∧ s.handler t = .outside then
    match s.mutex.lock t with
    | .done m => some { s.setHandler t .locked with mutex := m }
    | .blocked => none
    | .misused => some s.undefined
  else none

/-- The push, which leaves the system as it is in `sys`. -/
def push (t : ThreadId) (sys : System) : Option Process :=
  if s.handler t = .locked then
    some { s.setHandler t .pushed with system := sys, missed := s.missed || s.statement.unaware }
  else none

def notifyStep (t : ThreadId) : Option Process :=
  if s.handler t = .pushed then
    match s.statement with
    | .asleep _ => some { s.setHandler t .notified with statement := .asleep true }
    | _ => some (s.setHandler t .notified)
  else none

/-- The destructor of `lock`. -/
def release (t : ThreadId) : Process :=
  match s.mutex.unlock t with
  | .done m => { s.setHandler t .outside with mutex := m }
  | _ => s.undefined

def unlockStep (t : ThreadId) : Option Process :=
  if s.handler t = .notified then some (s.release t) else none

/-- A statement of `CynaraTalker::run`, or the push in the handler that it calls. -/
def threadStep (e : Event) : Option Process :=
  -- the constructor of `mlock` comes before `cynara_agent_finish`
  if s.system.thread.point = .finish ∧ s.closing = false then none
  else (System.threadStep e s.system).bind fun sys =>
    if hands s.system.thread.point then
      match e, s.handler .talker with
      -- the handler throws: `m_mutex.lock()`, or `push` while the mutex is locked
      | .handle (some _), .outside => some { s with system := sys }
      | .handle (some _), .locked => some ({ s with system := sys }.release .talker)
      | .handle (some _), _ => none
      | _, _ => s.push .talker sys
    else if s.handler .talker = .outside then some { s with system := sys }
    else none

/-- The callback of a dialog throws, before it has the lock or with it. -/
def throwStep (u : UIPtr) (sys : System) : Option Process :=
  match s.handler (.dialog u) with
  | .outside => some { s with system := sys }
  | .locked => some ({ s with system := sys }.release (.dialog u))
  | _ => none

/-! ### The end of `CynaraTalker::run` -/

/-- The constructor of `mlock`. -/
def mlockStep : Option Process :=
  if s.system.thread.point = .finish ∧ s.handler .talker = .outside ∧ s.closing = false then
    match s.talkerMutex.lock .talker with
    | .done m => some { s with talkerMutex := m, closing := true }
    | .blocked => none
    | .misused => some s.undefined
  else none

/-- The destructor of `mlock`. -/
def munlockStep : Option Process :=
  if s.system.thread.point = .returned ∧ s.closing then
    match s.talkerMutex.unlock .talker with
    | .done m => some { s with talkerMutex := m, closing := false }
    | _ => some s.undefined
  else none

/-! ### All threads -/

inductive Label
  | main (c : Choice)
  | lock (t : ThreadId)
  | thread (e : Event)
  | post (u : UIPtr) (ret : ℤ) (buttonClicked : Int32)
  | postThrows (u : UIPtr)
  | notify (t : ThreadId)
  | unlock (t : ThreadId)
  | finish (u : UIPtr)
  | mlock
  | munlock
  | sigterm

def step (L : Limits) (l : Label) (s : Process) : Option Process :=
  if s.system.agent.pc.isFinal then none
  else match l with
    | .main c => s.mainStep L c
    | .lock t => s.lockStep t
    | .thread e => s.threadStep e
    | .post u ret buttonClicked =>
      (System.step L (.agent (.post u ret buttonClicked)) s.system).bind (s.push (.dialog u))
    | .postThrows u =>
      (System.step L (.agent (.postThrows u)) s.system).bind (s.throwStep u)
    | .notify t => s.notifyStep t
    | .unlock t => s.unlockStep t
    | .finish u =>
      if s.handler (.dialog u) = .outside then
        (System.step L (.agent (.finish u)) s.system).map fun sys => { s with system := sys }
      else none
    | .mlock => s.mlockStep
    | .munlock => s.munlockStep
    | .sigterm =>
      (System.step L (.agent .sigterm) s.system).map fun sys => { s with system := sys }

/-- A step of the main thread, which can open a dialog if it comes to that. -/
def tick : Label := .main ⟨0, 0, true⟩

/-- The states of the runs whose steps all satisfy a condition. -/
abbrev Reachable (L : Limits) (cond : Label → Process → Prop) : Process → Prop :=
  Run.Reachable (step L) cond new

end Process

end AskUser
