import Cleat.HostCalls
import Cleat.Lifecycle
import Cleat.Plugins
import Cleat.Sends
import Cleat.Updates

/-!
# The calls a guest can make

All host calls of the modelled part of the engine: those whose replay the engine's ledger
covers, and the ones around them that read the clock, sleep, poll, and deal with children,
plugins, locks, schedules, updates and the run's own life. Calls that neither read nor change
what a session keeps of its run, such as those for names, random numbers and logging, are left
out, and so is the wait for an event, which is a loop over a plugin call and an await on signals.
-/
namespace Cleat

/-- A call that a guest can make. -/
inductive GuestCall where
  | host (call : HostCall)
  | now
  | durableSleep (durationMs : Int)
  | pollSignal (signalName : String) (buffer : OutBuf)
  | pollCancellation (buffer : OutBuf)
  | childWorkflow (child : ChildRequest) (buffer : OutBuf)
  | awaitChild (runID : String) (buffer : OutBuf)
  | awaitAnyChild (runIDsJSON : String) (buffer : OutBuf)
  | awaitAllChildren (runIDsJSON : String) (buffer : OutBuf)
  | pollChild (runID : String) (buffer : OutBuf)
  | pluginCall (pluginName functionName input : String) (buffer : OutBuf)
  | pluginCallStreaming (pluginName functionName input : String) (buffer : OutBuf)
  | acquireLock (key : String) (ttlMs : Int)
  | releaseLock (key : String)
  | scheduleCron (cron : CronRequest) (buffer : OutBuf)
  | durableSend (service operation request : String)
  | durableScheduleInvoke (service operation request : String) (delayMs : Int)
  | durablePollUpdate (buffer : OutBuf)
  | durableCompleteUpdate (requestID result errMsg : String)
  | serveWasiSleep (durationMs : Int)
  | continueAsNew (newInput : String)
  | continueAsNewWithVersion (newInput : String) (newVersion : Int)
  | registerUpdateHandler (name : String)
  | durableDefer (description : String) (buffer : OutBuf)
  | resolvePromise (promiseID value : String)
  | rejectPromise (promiseID errMsg : String)
  | fetch (request : FetchRequest) (buffer : OutBuf)
  | deleteCron (scheduleID : String)
  | listCrons (buffer : OutBuf)
  | runDetached (name input : String)
  | startDetached (name input : String) (buffer : OutBuf)
deriving DecidableEq, Repr

/-- What the engine does for a call. -/
def GuestCall.execute (engine : Engine) (s : ExecSession) : GuestCall → Work Replied
  | .host call => call.execute engine s
  | .now => Cleat.now s
  | .durableSleep durationMs => Cleat.durableSleep s durationMs
  | .pollSignal signalName buffer => Cleat.pollSignal engine s signalName buffer
  | .pollCancellation buffer => Cleat.pollCancellation engine s buffer
  | .childWorkflow child buffer => Cleat.childWorkflow engine s child buffer
  | .awaitChild runID buffer => Cleat.awaitChild engine s runID buffer
  | .awaitAnyChild runIDsJSON buffer => Cleat.awaitAnyChild engine s runIDsJSON buffer
  | .awaitAllChildren runIDsJSON buffer => Cleat.awaitAllChildren engine s runIDsJSON buffer
  | .pollChild runID buffer => Cleat.pollChild engine s runID buffer
  | .pluginCall pluginName functionName input buffer =>
    Cleat.pluginCall engine s pluginName functionName input buffer
  | .pluginCallStreaming pluginName functionName input buffer =>
    Cleat.pluginCallStreaming engine s pluginName functionName input buffer
  | .acquireLock key ttlMs => Cleat.acquireLock engine s key ttlMs
  | .releaseLock key => Cleat.releaseLock engine s key
  | .scheduleCron cron buffer => Cleat.scheduleCron engine s cron buffer
  | .durableSend service operation request => Cleat.durableSend engine s service operation request
  | .durableScheduleInvoke service operation request delayMs =>
    Cleat.durableScheduleInvoke engine s service operation request delayMs
  | .durablePollUpdate buffer => Cleat.durablePollUpdate engine s buffer
  | .durableCompleteUpdate requestID result errMsg =>
    Cleat.durableCompleteUpdate engine s requestID result errMsg
  | .serveWasiSleep durationMs => do
      let (_, s) ← Cleat.serveWasiSleep s durationMs
      pure (⟨0, []⟩, s)
  | .continueAsNew newInput => continueAsNewCall engine s newInput
  | .continueAsNewWithVersion newInput newVersion =>
    Cleat.continueAsNewWithVersion engine s newInput newVersion
  | .registerUpdateHandler name => Cleat.registerUpdateHandler engine s name
  | .durableDefer description buffer => Cleat.durableDefer engine s description buffer
  | .resolvePromise promiseID value => Cleat.resolvePromise engine s promiseID value
  | .rejectPromise promiseID errMsg => Cleat.rejectPromise engine s promiseID errMsg
  | .fetch request buffer => Cleat.fetch engine s request buffer
  | .deleteCron scheduleID => Cleat.deleteCron engine s scheduleID
  | .listCrons buffer => Cleat.listCrons engine s buffer
  | .runDetached name input => Cleat.runDetached engine s name input
  | .startDetached name input buffer => Cleat.startDetached engine s name input buffer

end Cleat
