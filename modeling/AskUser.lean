import AskUser.RequestFormat
import AskUser.CacheRefinement
import AskUser.RequestLife
import AskUser.DialogSafety
import AskUser.Attribution
import AskUser.MalformedRequest
import AskUser.Consent
import AskUser.CacheInvariant
import AskUser.MalformedAnswer
import AskUser.RequestDecoding
import AskUser.CacheFailure
import AskUser.FailedUpdate
import AskUser.CreateUI
import AskUser.CynaraTalker
import AskUser.TalkerSteps
import AskUser.Buffers
import AskUser.Delivery
import AskUser.Announcement
import AskUser.Dismissal
import AskUser.PendingRequests
import AskUser.JournalGrowth
import AskUser.Shutdown
import AskUser.Progress
import AskUser.RememberedAccess
import AskUser.Broker
import AskUser.Connection
import AskUser.Prompts
import AskUser.Deadlock
import AskUser.WakeUps
import AskUser.ConnectionLock
