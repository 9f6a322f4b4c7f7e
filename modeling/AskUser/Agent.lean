import Mathlib.Data.List.AList
import AskUser.Backend
import AskUser.Lib.Heap

/-!
# The agent

The class `Agent` (`Agent.h`, `Agent.cpp`) with the functions of its main thread. They run in
`AgentM`: a state, and an abort that keeps the state it happened in. What C++ leaves undefined
(using or deleting a deleted object) is an abort as well, so that it can be proved absent.

* `Requests` holds the `Request` objects and the two containers with pointers to them, `Dialogs`
  the dialogs and `m_UIs`. Each carries a journal, which no function reads: it says what happened
  to which object, and what the agent sent about it. `answers` is a third one, for what the
  callbacks of the dialogs have come to;
* `processCynaraRequest`, `processUIResponse`, `cleanupUIThreads` and `finish` follow the source;
* the maps are read by key only, or from end to end with steps that do not depend on each other,
  so the order of their entries is left open.
-/

namespace AskUser
namespace Agent
open ByteText Objects

inductive RequestType
  | RT_Action
  | RT_Cancel
  | RT_Close
  deriving DecidableEq

open RequestType UIResponseType

structure Request where
  type : RequestType
  id : RequestId
  data : PluginData
  deriving DecidableEq

abbrev RequestPtr := ℕ

abbrev UIPtr := ℕ

/-- `Response`, with the dialog whose thread made it. The source knows the id only. -/
structure Response where
  id : RequestId
  type : UIResponseType
  postedBy : UIPtr
  deriving DecidableEq

/-- Why a response is sent to cynara. -/
inductive Cause
  | startFailure
  | response (r : Response)
  | cancel (request : RequestPtr)
  deriving DecidableEq

/-- A call of `CynaraTalker::sendResponse`. -/
structure Sent where
  requestType : RequestType
  requestId : RequestId
  data : PluginData
  cause : Cause
  deriving DecidableEq

/-- What can happen to a request. -/
inductive RequestAct
  /-- given to `requestHandler` -/
  | handed (r : Request)
  /-- taken out of `m_incomingRequests` by `run` -/
  | popped
  /-- found its id taken by a request in `m_requests` -/
  | duplicate (pending : RequestPtr)
  | startFailed
  /-- an exception left `processCynaraRequest` -/
  | thrown (e : StdException)
  /-- put into `m_requests` -/
  | recorded
  /-- a response was sent about it -/
  | sent (s : Sent)
  | deleted
  deriving DecidableEq

/-- What can happen to a dialog. -/
inductive DialogAct
  /-- its thread was started, for this request and its id -/
  | started (id : RequestId) (request : RequestPtr)
  | joined
  | destroyed
  deriving DecidableEq

/-- What can come of the callback of a dialog. -/
inductive AnswerAct
  /-- pushed to `m_incomingResponses` -/
  | posted (r : Response)
  /-- nothing, because of an exception -/
  | threw
  /-- taken out of `m_incomingResponses` by `run` -/
  | popped (r : Response)
  deriving DecidableEq

/-- The `Request` objects, and the containers that hold pointers to them. -/
structure Requests where
  objects : Heap Request
  incomingRequests : List RequestPtr
  requests : AList fun _ : RequestId => RequestPtr
  journal : Journal RequestPtr RequestAct

/-- The dialogs, and the map that owns them. -/
structure Dialogs where
  objects : Heap AskUINotificationBackend
  UIs : AList fun _ : RequestId => UIPtr
  journal : Journal UIPtr DialogAct

/-- How the main thread can end otherwise than by returning. -/
inductive Abort
  | exception (e : StdException)
  /-- `std::terminate` -/
  | terminate
  | useAfterFree
  | doubleFree
  deriving DecidableEq

/-- The thread of `CynaraTalker`. -/
inductive TalkerState
  | notStarted
  | initializing
  | receiving
  /-- out of the loop, the promise is not set -/
  | closing
  /-- left without setting the promise -/
  | returned
  | finished
  | joined
  deriving DecidableEq

/-- Where the main thread is: at the head of one of the loops of `run`, or before the call that is
named, or past the end of `run`. -/
inductive Pc
  | start
  /-- `while (!m_stopFlag)` -/
  | outer
  /-- in `wait_for` -/
  | waiting
  /-- `while (!m_incomingRequests.empty() || !m_incomingResponses.empty())` -/
  | inner
  /-- a request is popped -/
  | request (p : RequestPtr)
  /-- `if (!m_incomingResponses.empty())` -/
  | responses
  /-- a response is popped -/
  | response (r : Response)
  /-- `cleanupUIThreads` is next -/
  | cleanup
  /-- out of `run`, the destructor is next -/
  | stopped
  /-- `finish` ran to its end -/
  | finished
  /-- `finish` called `quick_exit` -/
  | exited
  | crashed (a : Abort)
  deriving DecidableEq

end Agent

/-- The agent: the object, the state of its threads, and the exception that ended `run`, if any. -/
structure Agent where
  store : Agent.Requests
  dialogs : Agent.Dialogs
  incomingResponses : List Agent.Response
  answers : Objects.Journal Agent.UIPtr Agent.AnswerAct
  stopFlag : Bool
  talker : Agent.TalkerState
  /-- how often the thread of `m_cynaraTalker` was joined -/
  talkerJoins : ℕ
  pc : Agent.Pc
  exception : Option StdException

namespace Agent
open RequestType UIResponseType

/-- The agent when `main` calls `run`. -/
def new : Agent where
  store := ⟨.empty, [], ∅, .empty⟩
  dialogs := ⟨.empty, ∅, .empty⟩
  incomingResponses := []
  answers := .empty
  stopFlag := false
  talker := .notStarted
  talkerJoins := 0
  pc := .start
  exception := none

abbrev AgentM := EStateM Abort Agent

/-! ### Requests -/

namespace Requests

def note (b : Requests) (p : RequestPtr) (a : RequestAct) : Requests :=
  { b with journal := b.journal.note p a }

def story (b : Requests) (p : RequestPtr) : List RequestAct := b.journal.story p

/-- A new object, pushed to the queue. -/
def hand (b : Requests) (r : Request) : Requests where
  objects := b.objects.alloc r
  incomingRequests := b.incomingRequests ++ [b.objects.size]
  requests := b.requests
  journal := b.journal.note b.objects.size (.handed r)

def free (b : Requests) (p : RequestPtr) : Requests :=
  { b with objects := b.objects.free p, journal := b.journal.note p .deleted }

/-- `m_requests.insert`, which leaves an entry alone that is there already. -/
def insert (b : Requests) (id : RequestId) (p : RequestPtr) : Requests :=
  if id ∈ b.requests then b
  else { b with requests := b.requests.insert id p, journal := b.journal.note p .recorded }

def erase (b : Requests) (id : RequestId) : Requests :=
  { b with requests := b.requests.erase id }

end Requests

/-- A change of the requests alone. -/
def onRequests (f : Requests → Requests) : AgentM Unit := fun s =>
  .ok () { s with store := f s.store }

/-- The object behind a pointer. -/
def request (p : RequestPtr) : AgentM Request := fun s =>
  match s.store.objects.cell p with
  | none => .error .useAfterFree s
  | some r => .ok r s

/-- `delete`. -/
def delete (p : RequestPtr) : AgentM Unit := fun s =>
  match s.store.objects.cell p with
  | none => .error .doubleFree s
  | some _ => .ok () { s with store := s.store.free p }

/-- `m_cynaraTalker.sendResponse`, about the request at `p`. Its result is not looked at. -/
def sendResponse (p : RequestPtr) (type : RequestType) (id : RequestId) (data : PluginData)
    (cause : Cause) : AgentM Unit :=
  onRequests fun b => b.note p (.sent ⟨type, id, data, cause⟩)

/-- A scope that is owned by a `unique_ptr` to the request at `p`: unless the scope releases the
pointer, the request is deleted at the end, also when an exception passes. -/
def withUniquePtr (p : RequestPtr) (scope : AgentM Bool) : AgentM Unit := fun s =>
  match scope s with
  | .ok true s => .ok () s
  | .ok false s => delete p s
  | .error (.exception e) s =>
    match (onRequests fun b => b.note p (.thrown e)) s with
    | .error a s => .error a s
    | .ok _ s =>
      match delete p s with
      | .error a s => .error a s
      | .ok _ s => .error (.exception e) s
  | .error a s => .error a s

/-! ### Dialogs -/

namespace Dialogs

def note (d : Dialogs) (u : UIPtr) (a : DialogAct) : Dialogs :=
  { d with journal := d.journal.note u a }

def story (d : Dialogs) (u : UIPtr) : List DialogAct := d.journal.story u

def alloc (d : Dialogs) (ui : AskUINotificationBackend) : Dialogs :=
  { d with objects := d.objects.alloc ui }

def put (d : Dialogs) (u : UIPtr) (ui : AskUINotificationBackend) : Dialogs :=
  { d with objects := d.objects.modify u fun _ => ui }

def free (d : Dialogs) (u : UIPtr) : Dialogs :=
  { d with objects := d.objects.free u, journal := d.journal.note u .destroyed }

def insert (d : Dialogs) (id : RequestId) (u : UIPtr) : Dialogs :=
  { d with UIs := d.UIs.insert id u }

def erase (d : Dialogs) (id : RequestId) : Dialogs := { d with UIs := d.UIs.erase id }

end Dialogs

/-- A change of the dialogs alone. -/
def onDialogs (f : Dialogs → Dialogs) : AgentM Unit := fun s =>
  .ok () { s with dialogs := f s.dialogs }

/-- The dialog behind a pointer. -/
def dialog (u : UIPtr) : AgentM AskUINotificationBackend := fun s =>
  match s.dialogs.objects.cell u with
  | none => .error .useAfterFree s
  | some ui => .ok ui s

/-- The destructor of a dialog. It destroys the `std::thread`, which terminates the program while
the thread is joinable. -/
def destroy (u : UIPtr) : AgentM Unit := fun s =>
  match s.dialogs.objects.cell u with
  | none => .error .doubleFree s
  | some ui =>
    if ui.joinable then .error .terminate { s with dialogs := s.dialogs.free u }
    else .ok () { s with dialogs := s.dialogs.free u }

/-- `dismiss` of a dialog. -/
def dismiss (u : UIPtr) : AgentM Bool := do
  let ui ← dialog u
  match ui.dismiss with
  | .error e => throw (.exception e)
  | .ok (joined, ui) =>
    onDialogs fun d => d.put u ui
    if joined then onDialogs fun d => d.note u .joined
    return joined

/-- `m_UIs.erase` of an iterator: the entry goes, and the dialog with it. -/
def eraseUI (id : RequestId) (u : UIPtr) : AgentM Unit := do
  onDialogs fun d => d.erase id
  destroy u

def dismissUI (id : RequestId) : AgentM Unit := do
  match (← get).dialogs.UIs.lookup id with
  | none => return
  | some u => if ← dismiss u then eraseUI id u

/-- The loop of `cleanupUIThreads` over the entries still ahead, with its variable `ret`. -/
def cleanupLoop : List (Sigma fun _ : RequestId => UIPtr) → Bool → AgentM Bool
  | [], ret => return ret
  | ⟨id, u⟩ :: rest, ret => do
    let ui ← dialog u
    let gone ← if ui.dismissing then dismiss u else pure false
    if gone then
      eraseUI id u
      cleanupLoop rest ret
    else cleanupLoop rest false

def cleanupUIThreads : AgentM Bool := do
  cleanupLoop (← get).dialogs.UIs.entries true

/-! ### Processing -/

/-- What the surroundings decide while the main thread processes a request: the indeterminate
values that it reads, and whether the dialog can be put on the screen. -/
structure Choice where
  strSize : ℕ
  requestId : RequestId
  createUI : Bool
  deriving DecidableEq

variable (L : Limits) (c : Choice)

def startUIForRequest (p : RequestPtr) : AgentM Bool := do
  let r ← request p
  match Translator.Agent.dataToRequest L c.strSize r.data with
  | .error e => throw (.exception e)
  | .ok _ =>
    let u := (← get).dialogs.objects.size
    onDialogs fun d => d.alloc (.new c.requestId)
    let ui ← dialog u
    match ui.start c.createUI r.id with
    | (false, _) =>
      destroy u
      return false
    | (true, ui) =>
      onDialogs fun d => (d.put u ui).note u (.started r.id p)
      match (← get).dialogs.UIs.lookup r.id with
      | none => onDialogs fun d => d.insert r.id u
      -- nothing is inserted, and the pair that was to be inserted dies with the dialog in it
      | some _ => destroy u
      return true

def processCynaraRequest (p : RequestPtr) : AgentM Unit := withUniquePtr p do
  let r ← request p
  match (← get).store.requests.lookup r.id with
  | some existing =>
    if r.type = RT_Cancel then
      delete existing
      onRequests fun b => b.erase r.id
      let r ← request p  -- still there, unlike what was just deleted
      sendResponse existing r.type r.id [] (.cancel p)
      dismissUI r.id
    else onRequests fun b => b.note p (.duplicate existing)
    return false
  | none =>
    if r.type = RT_Cancel then return false
    else if ← startUIForRequest L c p then
      onRequests fun b => b.insert r.id p
      return true
    else
      onRequests fun b => b.note p .startFailed
      sendResponse p RT_Action r.id (Translator.Agent.answerToData 0 AgentErrorMsg.Error)
        .startFailure
      return false

open SupportedTypes.Client in
def UIResponseToPolicyType : UIResponseType → PolicyType
  | URT_YES_ONCE => ALLOW_ONCE
  | URT_YES_SESSION => ALLOW_PER_SESSION
  | URT_YES_LIFE => ALLOW_PER_LIFE
  | URT_NO_ONCE => DENY_ONCE
  | URT_NO_SESSION => DENY_PER_SESSION
  | URT_NO_LIFE => DENY_PER_LIFE
  | _ => DENY_ONCE

/-- The `pluginData` of `processUIResponse`. -/
def pluginData (type : UIResponseType) : PluginData :=
  if type = URT_ERROR then Translator.Agent.answerToData 0 AgentErrorMsg.Error
  else if type = URT_TIMEOUT then Translator.Agent.answerToData 0 AgentErrorMsg.Timeout
  else Translator.Agent.answerToData (UIResponseToPolicyType type) AgentErrorMsg.NoError

def processUIResponse (response : Response) : AgentM Unit := do
  match (← get).store.requests.lookup response.id with
  | none => pure ()
  | some p =>
    let r ← request p
    sendResponse p RT_Action r.id (pluginData response.type) (.response response)
    delete p
    onRequests fun b => b.erase response.id
  dismissUI response.id

/-! ### Shutdown -/

/-- `CynaraTalker::stop`. -/
def stopTalker : AgentM Bool := fun s =>
  match s.talker with
  | .finished => .ok true { s with talker := .joined, talkerJoins := s.talkerJoins + 1 }
  | .joined => .error (.exception .system_error) s
  | _ => .ok false s

/-- The loop of `finish` over `m_incomingRequests`. -/
def drainRequests : List RequestPtr → AgentM Unit
  | [] => return
  | p :: rest => do
    onRequests fun b => { b with incomingRequests := rest }
    delete p
    drainRequests rest

/-- The loop of `finish` over `m_requests`. -/
def deleteRequests : List (Sigma fun _ : RequestId => RequestPtr) → AgentM Unit
  | [] => return
  | ⟨id, p⟩ :: rest => do
    delete p
    onRequests fun b => b.erase id
    deleteRequests rest

/-- `finish`, with `false` for the calls of `quick_exit`. -/
def finish : AgentM Bool := do
  if !(← stopTalker) then return false
  drainRequests (← get).store.incomingRequests
  if !(← cleanupUIThreads) then return false
  deleteRequests (← get).store.requests.entries
  return true

end Agent

end AskUser
