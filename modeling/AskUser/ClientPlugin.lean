import AskUser.ServicePlugin

/-!
# The client plugin

`ClientPlugin`, loaded by cynara's client library: it says which results of the service may be
kept for a session, and what they mean for the caller (`ClientPlugin.cpp`).
-/

namespace AskUser
open SupportedTypes

/-- `ClientSession`. -/
abbrev ClientSession := ByteText.Bytes

/-- The two answers of cynara's client API. -/
structure CynaraApi where
  ACCESS_ALLOWED : ℤ
  ACCESS_DENIED : ℤ
  allowed_ne_denied : ACCESS_ALLOWED ≠ ACCESS_DENIED

/-- The values that cynara documents. -/
def CynaraApi.cynara : CynaraApi := ⟨2, 1, by decide⟩

namespace ClientPlugin

def isCacheable (_session : ClientSession) (result : PolicyResult) : Bool :=
  result.policyType = Client.ALLOW_PER_SESSION ∨ result.policyType = Client.DENY_PER_SESSION

/-- `isUsable`, with the value that it leaves in `updateSession`. -/
def isUsable (session prevSession : ClientSession) (result : PolicyResult) : Bool × Bool :=
  if result.policyType = Client.ALLOW_PER_SESSION ∨ result.policyType = Client.DENY_PER_SESSION then
    (session = prevSession, false)
  else (false, false)

def toResult (A : CynaraApi) (_session : ClientSession) (result : PolicyResult) : ℤ :=
  if result.policyType = Client.ALLOW_ONCE ∨ result.policyType = Client.ALLOW_PER_SESSION then
    A.ACCESS_ALLOWED
  else A.ACCESS_DENIED

end ClientPlugin

end AskUser
