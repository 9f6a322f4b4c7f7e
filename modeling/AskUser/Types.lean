import AskUser.Lib.Stream

/-!
# Types shared by the agent and the plugins

The numbers and texts that the agent, the service plugin and the client plugin have to agree on
(`common/types`), and what they rely on from cynara's headers, which are not part of the
repository: `PolicyType` is an unsigned 16-bit integer, and the predefined policy types are
distinct values outside the range that the plugins claim for themselves.
-/

namespace AskUser
open ByteText

/-- `Cynara::PolicyType`. -/
abbrev PolicyType := UInt16

/-- `Cynara::PluginData`: what the plugin and the agent send each other. -/
abbrev PluginData := Bytes

namespace SupportedTypes

/-- `SupportedTypes::Agent::AgentType`. -/
def AgentType : Bytes := text "AskUser"

namespace Client

def ALLOW_ONCE : PolicyType := 11
def ALLOW_PER_SESSION : PolicyType := 12
/-- "This one will never reach client, but will be interpreted in service plugin." -/
def ALLOW_PER_LIFE : PolicyType := 13

def DENY_ONCE : PolicyType := 14
def DENY_PER_SESSION : PolicyType := 15
/-- "This one will never reach client, but will be interpreted in service plugin." -/
def DENY_PER_LIFE : PolicyType := 16

/-- The policy types of the client plugin, and the two that only the service plugin reads. -/
def types : List PolicyType :=
  [ALLOW_ONCE, ALLOW_PER_SESSION, ALLOW_PER_LIFE, DENY_ONCE, DENY_PER_SESSION, DENY_PER_LIFE]

/-- The two answers that the service plugin remembers. -/
def IsPerLife (t : PolicyType) : Prop := t = ALLOW_PER_LIFE ∨ t = DENY_PER_LIFE

instance (t : PolicyType) : Decidable (IsPerLife t) := inferInstanceAs (Decidable (_ ∨ _))

theorem IsPerLife.mem_types {t : PolicyType} (h : IsPerLife t) : t ∈ types := by
  rcases h with rfl | rfl <;> decide

end Client

end SupportedTypes

/-- `Cynara::PredefinedPolicyType`, as far as the plugins use it. -/
structure PredefinedPolicyType where
  ALLOW : PolicyType
  DENY : PolicyType
  allow_ne_deny : ALLOW ≠ DENY
  allow_reserved : ALLOW ∉ SupportedTypes.Client.types
  deny_reserved : DENY ∉ SupportedTypes.Client.types

/-- The values that cynara documents. -/
def PredefinedPolicyType.cynara : PredefinedPolicyType where
  ALLOW := 0xFFFF
  DENY := 0
  allow_ne_deny := by decide
  allow_reserved := by decide
  deny_reserved := by decide

namespace AgentErrorMsg

def NoError : Bytes := []
def Error : Bytes := ['E', 'R', 'R', 'O', 'R'].map byte
def Timeout : Bytes := ['T', 'I', 'M', 'E', 'O', 'U', 'T'].map byte

end AgentErrorMsg

/-- The three strings that a request carries. -/
structure RequestData where
  client : Bytes
  user : Bytes
  privilege : Bytes
  deriving DecidableEq

end AskUser
