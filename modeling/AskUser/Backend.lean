import AskUser.Translator

/-!
# The dialogs

`AskUINotificationBackend`: one dialog on the screen and the thread that waits for the user
(`AskUIInterface.h`, `AskUINotificationBackend.cpp`).

* `response` is what the thread makes of `notification_wait_response`: the button number is
  compared after a cast to `unsigned int`, so a negative number is a large one;
* `start` and `dismiss` change the object. Destroying it while its thread is `joinable` is
  `std::terminate`, which is left to the owner.
-/

namespace AskUser
namespace Agent

/-- `RequestId`, cynara's `cynara_agent_req_id`: only ever compared. -/
abbrev RequestId := ℕ

inductive UIResponseType
  | URT_NO_ONCE
  | URT_NO_SESSION
  | URT_NO_LIFE
  | URT_YES_ONCE
  | URT_YES_SESSION
  | URT_YES_LIFE
  | URT_TIMEOUT
  | URT_ERROR
  deriving DecidableEq

open UIResponseType

/-- `NOTIFICATION_ERROR_NONE`. -/
def NOTIFICATION_ERROR_NONE : ℤ := 0

/-- The thread of a dialog, from the constructor on. -/
inductive ThreadState
  | notStarted
  /-- waiting for the user -/
  | running
  /-- `m_responseCallback` has returned, or thrown -/
  | posted
  /-- `m_threadFinished` is set -/
  | finished
  | joined
  deriving DecidableEq

/-- The dialog object. -/
structure AskUINotificationBackend where
  requestId : RequestId
  dismissing : Bool
  thread : ThreadState
  deriving DecidableEq

namespace AskUINotificationBackend

/-- The table `respType` of `run`. -/
def respType : Vector UIResponseType 6 :=
  #v[URT_NO_ONCE, URT_NO_SESSION, URT_NO_LIFE, URT_YES_ONCE, URT_YES_SESSION, URT_YES_LIFE]

/-- The response that `run` gives to its callback, from what `notification_wait_response` returned
and the button that it stored. -/
def response (ret : ℤ) (buttonClicked : Int32) : UIResponseType :=
  if ret = NOTIFICATION_ERROR_NONE then
    if buttonClicked ≠ 0 then
      if h : buttonClicked.toUInt32.toNat > 6 then URT_ERROR
      else respType[buttonClicked.toUInt32.toNat - 1]
    else URT_TIMEOUT
  else URT_ERROR

/-- The constructor. `m_requestId` is not initialised before `start`. -/
def new (indeterminate : RequestId) : AskUINotificationBackend :=
  ⟨indeterminate, false, .notStarted⟩

/-- `start`, where `created` says whether `createUI` could put the dialog on the screen. -/
def start (ui : AskUINotificationBackend) (created : Bool) (requestId : RequestId) :
    Bool × AskUINotificationBackend :=
  if created then (true, { ui with requestId := requestId, thread := .running }) else (false, ui)

/-- `dismiss`: it only gets rid of a thread that has finished. The future stays ready, so a second
`join` would be tried and would throw. -/
def dismiss (ui : AskUINotificationBackend) :
    Except StdException (Bool × AskUINotificationBackend) :=
  match ui.thread with
  | .finished => .ok (true, { ui with dismissing := true, thread := .joined })
  | .joined => .error .system_error
  | .notStarted | .running | .posted => .ok (false, { ui with dismissing := true })

/-- `m_thread.joinable()`. -/
def joinable (ui : AskUINotificationBackend) : Bool :=
  match ui.thread with
  | .running | .posted | .finished => true
  | .notStarted | .joined => false

end AskUINotificationBackend

end Agent
end AskUser
