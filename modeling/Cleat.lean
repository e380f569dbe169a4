import Cleat.IntentChain
import Cleat.DeferSegment
import Cleat.ClockSteps
import Cleat.ChildStarts
import Cleat.ChildPolls
import Cleat.Deliveries
import Cleat.WriteOnce
import Cleat.IntentFaults
import Cleat.Store.Settled
import Cleat.Store.DeferDeadline
import Cleat.Store.Cascade
import Cleat.Audit.Queue
import Cleat.Audit.Tamper
import Cleat.Triggers.Dispatch
import Cleat.Store.SignalKeys
import Cleat.Schedules.Overlap
import Cleat.Egress
import Cleat.Defers
import Cleat.Store.BatchFence
import Cleat.Quorum
import Cleat.Panics
import Cleat.UpdateKeys
import Cleat.KeyRings
import Cleat.TypedEvents
import Cleat.Store.Router
