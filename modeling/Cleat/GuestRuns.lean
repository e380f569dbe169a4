import Cleat.Durable.World
import Cleat.GuestCalls
import Cleat.Runs

/-!
# Runs of guests that make any call

A guest decodes a result word by the call that it made, and only some of the decoders look for
the word that stops it. The host of such guests is the engine with all of its calls.

The last part of this module is about the poll for a cancellation. It leaves no record, and a
session that replays answers it without asking the store.
-/
namespace Cleat

open Durable List Option Surroundings

/-- The field of a result word in which the decoder of a call looks for a stop. -/
inductive StopField where
  | none | sentinel | childSentinel | sleepStatus
deriving DecidableEq, Repr

/-- The field that the decoder of a call looks at before it reads any other. -/
def GuestCall.stopField : GuestCall → StopField
  | .host call => match call.kind with
      | .durableCall | .durableCallWithRetry | .durableCallWithHeartbeat | .sideEffect
      | .awaitPromise | .durableAwaitSignals => .sentinel
      | .createPromise | .signalWorkflow | .setScope => .none
  | .durableSleep _ => .sleepStatus
  | .awaitChild _ _ | .awaitAnyChild _ _ | .awaitAllChildren _ _ => .childSentinel
  | .childWorkflow _ _ | .pluginCall _ _ _ _ | .pluginCallStreaming _ _ _ _ | .acquireLock _ _
  | .scheduleCron _ _ | .durablePollUpdate _ | .durableCompleteUpdate _ _ _ | .runDetached _ _
  | .startDetached _ _ _ | .fetch _ _ => .sentinel
  | .now | .pollSignal _ _ | .pollCancellation _ | .pollChild _ _ | .releaseLock _
  | .durableSend _ _ _ | .durableScheduleInvoke _ _ _ _ | .serveWasiSleep _ | .continueAsNew _
  | .continueAsNewWithVersion _ _ | .registerUpdateHandler _ | .durableDefer _ _
  | .resolvePromise _ _ | .rejectPromise _ _ | .deleteCron _ | .listCrons _ => .none

/-- The word stops a guest that looks at this field. -/
def StopField.isSet (word : UInt64) : StopField → Bool
  | .none => false
  | .sentinel => word &&& callSuspendSentinel != 0
  | .childSentinel => word &&& packAwaitChildResultSuspend != 0
  | .sleepStatus => word >>> 56 == 1

/-- A reply as a guest sees it: with the call that it answers. -/
structure ToldCall where
  call : GuestCall
  reply : Reply
deriving DecidableEq, Repr

/-- The guest stops here. -/
def ToldCall.stops (told : ToldCall) : Bool := told.call.stopField.isSet told.reply.word

/-- The engine with all its calls as a host of deterministic guests. -/
def guestHost (engine : Engine) :
    Host Query Answer GuestCall ToldCall EventRecord ExecSession Opening where
  execute call s := do
    let (reply, s) ← call.execute engine s
    pure (⟨call, reply⟩, s)
  load := engine.openSession
  write := applyObserved
  suspends := ToldCall.stops
  parked s := s.suspendErr.isSome

abbrev GuestStep := Step Query Answer GuestCall ToldCall ExecSession

abbrev GuestSegment := Segment Query Answer GuestCall ToldCall EventRecord ExecSession

/-- The segments of a guest, from an empty store. -/
def guestRun (engine : Engine) (guest : Guest GuestCall ToldCall) (cuts : List Cut) :
    List GuestSegment :=
  (guestHost engine).run guest [] [] cuts

/-- A guest that makes one call after the other, whatever they return. -/
def inTurn (calls : List GuestCall) : Guest GuestCall ToldCall := fun replies => calls[replies.length]?

/-- Every event that is recorded in the segment is persisted. -/
def GuestSegment.Persists (segment : GuestSegment) : Prop :=
  ∀ step ∈ segment.steps, ∀ observed ∈ step.trace, Durably observed

instance (segment : GuestSegment) : Decidable segment.Persists :=
  inferInstanceAs (Decidable (∀ step ∈ segment.steps, ∀ observed ∈ step.trace, _))

/-- What a run observed, in order. -/
def guestObservations (run : List GuestSegment) : Trace :=
  run.flatMap fun segment => segment.steps.flatMap Step.trace

/-- A run of a guest together with what a store did meanwhile: it answered this run, as one of
its clients, and others. -/
structure RunOn {Client S : Type} [DecidableEq Client] (world : World Query Answer Client S)
    (client : Client) (engine : Engine) (guest : Guest GuestCall ToldCall) (cuts : List Cut) where
  state : S
  path : List (Served Query Answer Client S)
  valid : world.Valid state path
  followed : observedBy client path = guestObservations (guestRun engine guest cuts)

/-- A run of a guest together with what a store did for each of its steps. -/
structure ServedRun {Client S : Type} (world : World Query Answer Client S) (engine : Engine)
    (guest : Guest GuestCall ToldCall) (cuts : List Cut) where
  state : S
  segments : List (List (GuestStep × List (Served Query Answer Client S)))
  valid : world.Valid state (segments.flatten.flatMap Prod.snd)
  made : segments.map (·.map Prod.fst) = (guestRun engine guest cuts).map Segment.steps
  followed : ∀ step ∈ segments.flatten, step.2.map (·.observed) = step.1.trace

section Steps

variable {engine : Engine} {guest : Guest GuestCall ToldCall}

/-- Each step of a run is an execution of its call. -/
theorem guestRun_executes (cuts : List Cut) :
    ∀ segment ∈ guestRun engine guest cuts, ∀ step ∈ segment.steps,
      ((guestHost engine).execute step.call step.before).Runs step.trace step.outcome := by
  intro segment member step made
  obtain ⟨number, found⟩ := mem_iff_getElem?.mp member
  obtain ⟨index, made⟩ := mem_iff_getElem?.mp made
  obtain ⟨opening, scripts, opens⟩ := Host.run_segment cuts found
  exact Host.segment_runs scripts (opens ▸ made)

theorem guestObservations_eq (run : List GuestSegment) :
    guestObservations run = (run.map Segment.steps).flatten.flatMap Step.trace := by
  rw [guestObservations, ← flatMap_def, flatMap_assoc]

theorem steps_execute {cuts : List Cut} :
    ∀ step ∈ ((guestRun engine guest cuts).map Segment.steps).flatten,
      ((guestHost engine).execute step.call step.before).Runs step.trace step.outcome := by
  intro step member
  obtain ⟨segment, inside, made⟩ := mem_flatMap.mp (flatMap_def ▸ member)
  exact guestRun_executes cuts segment inside step made

/-- Relations that agree on what is in order agree on what recurs. -/
theorem recurrence_congr {α : Type} {segments : List (List α)} {relates another crosses : α → α → Prop}
    (ordered : segments.flatten.Pairwise crosses)
    (same : ∀ one ∈ segments.flatten, ∀ other ∈ segments.flatten, crosses one other →
      (relates one other ↔ another one other)) :
    (segments.Pairwise fun first second => ∀ both ∈ first.zip second, relates both.1 both.2) ↔
      segments.Pairwise fun first second => ∀ both ∈ first.zip second, another both.1 both.2 := by
  have alike : segments.Pairwise fun first second =>
      ((∀ both ∈ first.zip second, relates both.1 both.2) ↔
        ∀ both ∈ first.zip second, another both.1 both.2) := by
    refine (Pairwise.and_mem.mp (pairwise_flatten.mp ordered).2).imp ?_
    rintro first second ⟨one, two, crossing⟩
    refine forall₂_congr fun both member => ?_
    obtain ⟨made, repeated⟩ := of_mem_zip member
    exact same _ (mem_flatten_of_mem one made) _ (mem_flatten_of_mem two repeated)
      (crossing _ made _ repeated)
  exact ⟨fun related => (related.and alike).imp fun ⟨holds, same⟩ => same.mp holds,
    fun related => (related.and alike).imp fun ⟨holds, same⟩ => same.mpr holds⟩

/-- Relations that agree on executions of a run, whose observations are related in order, agree on
what the run repeats. -/
theorem recurs_congr {relates another : GuestStep → GuestStep → Prop}
    {related : Observed → Observed → Prop} {cuts : List Cut}
    (ordered : (guestObservations (guestRun engine guest cuts)).Pairwise related)
    (same : ∀ step again : GuestStep,
      step.trace.Pairwise related → again.trace.Pairwise related →
      (∀ observed ∈ step.trace, ∀ repeated ∈ again.trace, related observed repeated) →
      ((guestHost engine).execute step.call step.before).Runs step.trace step.outcome →
      ((guestHost engine).execute again.call again.before).Runs again.trace again.outcome →
      (relates step again ↔ another step again)) :
    Recurs relates (guestRun engine guest cuts) ↔ Recurs another (guestRun engine guest cuts) := by
  rw [guestObservations_eq] at ordered
  obtain ⟨inside, across⟩ := pairwise_flatMap.mp ordered
  have congr := recurrence_congr across fun step member again remember crossing =>
    same step again (inside step member) (inside again remember) crossing
      (steps_execute step member) (steps_execute again remember)
  simpa only [Recurs, pairwise_map] using congr

/-- The answers that a run was given by a store that grows and is only read are those of states in
order, before a final one. -/
theorem RunOn.ordered {S : Type} {world : World Query Answer Unit S} {grown : S → S → Prop}
    {Shows : S → Observed → Prop} {cuts : List Cut} (run : RunOn world () engine guest cuts)
    (reflexive : ∀ s, grown s s) (transitive : ∀ {s t u}, grown s t → grown t u → grown s u)
    (moves : ∀ {s t}, world.Moves s t → grown s t)
    (reads : ∀ {client s observed t}, world.Serves client s observed t → t = s ∧ Shows s observed) :
    ∃ final, (guestObservations (guestRun engine guest cuts)).Pairwise fun observed later =>
      ∃ state after, grown state after ∧ grown after final ∧ Shows state observed ∧
        Shows after later := by
  obtain ⟨final, _, bounded, _, ordered⟩ := run.valid.growing reflexive transitive moves
    fun serves => (reads serves).1 ▸ reflexive _
  refine ⟨final, ?_⟩
  rw [← run.followed, observedBy, pairwise_filterMap]
  refine ordered.imp_of_mem fun {one other} first second grown => ?_
  intro observed shown reobserved reshown
  obtain rfl : one.observed = observed := by simpa using shown
  obtain rfl : other.observed = reobserved := by simpa using reshown
  obtain ⟨same, answers⟩ := reads (run.valid.serves one first)
  obtain ⟨resame, reanswers⟩ := reads (run.valid.serves other second)
  exact ⟨one.before, other.before, same ▸ grown, resame ▸ bounded other second, answers, reanswers⟩

end Steps

namespace ServedRun

variable {Client S : Type} {world : World Query Answer Client S} {engine : Engine}
  {guest : Guest GuestCall ToldCall} {cuts : List Cut} (run : ServedRun world engine guest cuts)

/-- Every step of a segment and the step at its place in every later segment are related, with what
the store did for them. -/
def Recurs (relates : GuestStep × List (Served Query Answer Client S) →
    GuestStep × List (Served Query Answer Client S) → Prop) : Prop :=
  run.segments.Pairwise fun first second => ∀ both ∈ first.zip second, relates both.1 both.2

theorem executes : ∀ step ∈ run.segments.flatten,
    ((guestHost engine).execute step.1.call step.1.before).Runs step.1.trace step.1.outcome := by
  intro step member
  have made : step.1 ∈ ((guestRun engine guest cuts).map Segment.steps).flatten := by
    rw [← run.made, ← map_flatten]
    exact mem_map_of_mem member
  exact steps_execute step.1 made

/-- A relation that agrees with one of the steps alone, where the store did its work in order,
agrees with it on what the run repeats. -/
theorem recurs_iff {relates : GuestStep → GuestStep → Prop}
    {kept : GuestStep × List (Served Query Answer Client S) →
      GuestStep × List (Served Query Answer Client S) → Prop}
    {related : Served Query Answer Client S → Served Query Answer Client S → Prop}
    (ordered : (run.segments.flatten.flatMap Prod.snd).Pairwise related)
    (same : ∀ step ∈ run.segments.flatten, ∀ again ∈ run.segments.flatten,
      (∀ served ∈ step.2, ∀ later ∈ again.2, related served later) →
        (relates step.1 again.1 ↔ kept step again)) :
    Durable.Recurs relates (guestRun engine guest cuts) ↔ run.Recurs kept := by
  refine (pairwise_map (f := Segment.steps) (R := fun first second =>
    ∀ both ∈ first.zip second, relates both.1 both.2)).symm.trans ?_
  rw [← run.made, pairwise_map]
  simp only [zip_map, List.forall_mem_map]
  exact recurrence_congr (pairwise_flatMap.mp ordered).2 same

/-- What maps to parts one after the other can be told part by part. -/
theorem exists_parts {α β γ : Type} {f : α → List β} {g : γ → β} {whole : List γ} {parts : List α}
    (same : whole.map g = parts.flatMap f) : ∃ pairs : List (α × List γ),
      pairs.map Prod.fst = parts ∧ (∀ pair ∈ pairs, pair.2.map g = f pair.1) ∧
        pairs.flatMap Prod.snd = whole := by
  induction parts generalizing whole with
  | nil => exact ⟨[], rfl, by simp, (map_eq_nil_iff.mp same).symm⟩
  | cons part parts ih =>
    obtain ⟨front, rest, rfl, own, behind⟩ := map_eq_append_iff.mp same
    obtain ⟨pairs, rfl, each, rfl⟩ := ih behind
    exact ⟨(part, front) :: pairs, rfl, forall_mem_cons.mpr ⟨own, each⟩, rfl⟩

/-- What a store did for a run can be told step by step. -/
theorem exists_of_path {state : S} {path : List (Served Query Answer Client S)}
    (valid : world.Valid state path)
    (followed : path.map (·.observed) = guestObservations (guestRun engine guest cuts)) :
    ∃ run : ServedRun world engine guest cuts, run.state = state := by
  obtain ⟨steps, firsts, traces, rfl⟩ :=
    exists_parts (followed.trans (guestObservations_eq _))
  obtain ⟨groups, parts, each, rfl⟩ := exists_parts (firsts.trans flatten_eq_flatMap)
  have made : (groups.map Prod.snd).map (·.map Prod.fst) = groups.map Prod.fst := by
    rw [List.map_map]
    exact map_congr_left each
  exact ⟨⟨state, groups.map Prod.snd, by rwa [← flatMap_def], made.trans parts,
    by rwa [← flatMap_def]⟩, rfl⟩

end ServedRun

section Polls

/-- What a guest can read of a text. -/
def shownText (buffer : OutBuf) (text : String) : Bytes :=
  (writeResult buffer (bytesOf text)).1

/-- The reply to a poll that found a text, or nothing. -/
def pollReply (flags : UInt64) (buffer : OutBuf) : Option String → Reply
  | none => notFoundReply
  | some text => foundReply buffer (bytesOf text) flags

theorem pollReply_inj {flags : UInt64} {buffer : OutBuf} {one other : Option String} :
    pollReply flags buffer one = pollReply flags buffer other ↔
      one.map (shownText buffer) = other.map (shownText buffer) := by
  cases one <;> cases other <;>
    simp only [pollReply, notFoundReply, foundReply, shownText, Reply.mk.injEq, map_none,
      map_some, some.injEq, cons.injEq, reduceCtorEq, and_false, and_true]
  constructor
  · exact And.right
  · intro same
    exact ⟨by rw [same], same⟩

end Polls

section PollCancellation

/-- The buffer of a poll for a cancellation. -/
def GuestCall.cancellationBuffer : GuestCall → Option OutBuf
  | .pollCancellation buffer => some buffer
  | _ => none

/-- The cancellation that an answer shows: that of a reason, or none. -/
def shownCancellation : Observed → Option (Option String)
  | ⟨.pollCancellationReason, .ok (requested, reason)⟩ =>
    some (if requested then some reason else none)
  | _ => none

/-- The store fails to say whether a cancellation was requested. -/
def cancellationFailed : Observed → Bool
  | ⟨.pollCancellationReason, .error _⟩ => true
  | _ => false

attribute [local simp] shownCancellation cancellationFailed

/-- The cancellation that has been requested of a run, by its reason. A request is not taken back,
and another one may replace its reason. -/
def cancelWorld : World Query Answer Unit (Option String) where
  Serves _ requested observed after := after = requested ∧
    ∀ shown ∈ shownCancellation observed, shown = requested
  Moves _ after := after.isSome = true

instance {client : Unit} {requested after : Option String} {observed : Observed} :
    Decidable (cancelWorld.Serves client requested observed after) :=
  inferInstanceAs (Decidable (_ ∧ ∀ shown ∈ shownCancellation observed, _ = _))

/-- The cancellation that a call was told of. -/
def toldCancellation (trace : Trace) : Option String :=
  (trace.filterMap shownCancellation).head?.join

attribute [local simp] toldCancellation

variable {engine : Engine} {guest : Guest GuestCall ToldCall} {cuts : List Cut}

/-- A poll asks nothing in replay, and otherwise once. -/
def AsksOnce (engine : Engine) (s : ExecSession) (trace : Trace) : Prop :=
  if s.isReplay = false ∧ engine.signalStore = true
    then ∃ answer, trace = [⟨.pollCancellationReason, answer⟩] else trace = []

/-- A poll answers by what it is told. -/
theorem pollCancellation_told {buffer : OutBuf} {s : ExecSession} :
    ((guestHost engine).execute (.pollCancellation buffer) s).Always fun trace outcome =>
      ∀ result ∈ outcome,
        result.1 = ⟨.pollCancellation buffer, pollReply 1 buffer (toldCancellation trace)⟩ ∧
          AsksOnce engine s trace := by
  dsimp only [guestHost, GuestCall.execute]
  unfold pollCancellation AsksOnce
  cases replays : s.isReplay with
  | true =>
    rintro result ⟨rfl⟩
    exact ⟨rfl, rfl⟩
  | false =>
    cases store : engine.signalStore with
    | false =>
      rintro result ⟨rfl⟩
      exact ⟨rfl, rfl⟩
    | true =>
      refine ⟨by simp, fun answer _ => ?_⟩
      rcases answer with reason | ⟨_ | _, reason⟩
      all_goals
        rintro result ⟨rfl⟩
        exact ⟨rfl, by simp⟩

/-- A poll for a cancellation that is made again has the same reply. -/
def CancellationPolledAgain (step again : GuestStep) : Prop :=
  step.call.cancellationBuffer.isSome → again.call = step.call →
    ∀ result ∈ step.outcome, ∀ repeated ∈ again.outcome, repeated.1 = result.1

instance (step again : GuestStep) : Decidable (CancellationPolledAgain step again) :=
  inferInstanceAs (Decidable (_ → _ → _))

/-- A poll that was told of a cancellation is made again outside replay, the store does not fail,
and the guest reads the same reason. One that was told of none is made again in replay, or is told
of none. -/
def ToldAgain (buffer : OutBuf) (trace : Trace) (again : ExecSession) (retrace : Trace) : Prop :=
  match toldCancellation trace with
  | some reason => again.isReplay = false ∧
      (∀ observed ∈ retrace, cancellationFailed observed = false) ∧
      ∀ later ∈ toldCancellation retrace, shownText buffer later = shownText buffer reason
  | none => again.isReplay = false → toldCancellation retrace = none

def CancellationKept (step again : GuestStep) : Prop :=
  ∀ buffer ∈ step.call.cancellationBuffer, again.call = step.call →
    step.outcome.isSome → again.outcome.isSome →
      ToldAgain buffer step.trace again.before again.trace

/-- Once an answer has shown a request, every later one does. -/
theorem RunOn.stillRequested (run : RunOn cancelWorld () engine guest cuts) :
    (guestObservations (guestRun engine guest cuts)).Pairwise fun observed later =>
      ∀ reason, shownCancellation observed = some (some reason) →
        shownCancellation later ≠ some none := by
  have stays {state after : Option String} (moved : cancelWorld.Moves state after) :
      state.isSome → after.isSome := fun _ => moved
  obtain ⟨_, ordered⟩ := run.ordered (fun _ some => some)
    (fun first second some => second (first some)) stays fun serves => serves
  refine ordered.imp fun related reason shown reshown => ?_
  obtain ⟨state, after, grown, _, shows, reshows⟩ := related
  have requested := grown (by rw [← shows _ shown]; rfl)
  rw [← reshows _ reshown] at requested
  cases requested

/-- The call is a poll for a cancellation, or a service call. -/
def GuestCall.pollsOrCalls : GuestCall → Bool
  | .pollCancellation _ | .host (.durableCall _ _ _ _) => true
  | _ => false

/-- A poll leaves a session in replay where it is, and a service call if it finds a record. -/
theorem execute_keepsReplay {call : GuestCall} {s : ExecSession}
    (kind : call.pollsOrCalls = true) :
    ((guestHost engine).execute call s).Returns fun result =>
      (result.2.isReplay = true ↔
        s.isReplay = true ∧ (call.cancellationBuffer = none → s.current.isSome = true)) := by
  cases call with
  | pollCancellation buffer =>
    have kept : (pollCancellation engine s buffer).Returns fun result => result.2 = s := by
      unfold pollCancellation
      repeat' first
        | exact rfl
        | refine (Program.returns_any _).bind fun _ _ => ?_
        | split
    refine kept.bind fun result kept => ?_
    change _ ↔ _
    simp [kept, GuestCall.cancellationBuffer]
  | host call =>
    cases call with
    | durableCall service operation request buffer =>
      refine durableCall_keepsReplay.bind fun result kept => ?_
      change _ ↔ _
      simp only [kept, GuestCall.cancellationBuffer, forall_const]
    | _ => cases kind
  | _ => cases kind

/-- Behind polls and service calls, a segment is still in replay exactly if it began in replay and
each of the service calls has found a record. -/
theorem segment_replays_iff {scripts : List (Script Query Answer)} {session : ExecSession}
    {replies : List ToldCall} {index : Nat} {step : GuestStep} :
    let steps := (guestHost engine).segment guest session replies scripts
    steps[index]? = some step → (∀ earlier ∈ steps.take index, earlier.call.pollsOrCalls = true) →
      (step.before.isReplay = true ↔ session.isReplay = true ∧ ∀ earlier ∈ steps.take index,
        earlier.call.cancellationBuffer = none → earlier.before.current.isSome = true) := by
  intro steps made kinds
  induction index generalizing step with
  | zero =>
    obtain ⟨others, split⟩ := head?_eq_some_iff.mp (head?_eq_getElem? ▸ made)
    simp [Account.segment_head split]
  | succ index ih =>
    obtain ⟨earlier, reply, found, returned⟩ := Host.segment_next scripts made
    have runs := Host.segment_runs scripts found
    rw [(Account.returned_eq_some returned).1] at runs
    rw [take_add_one, show steps[index]? = _ from found, forall_mem_append] at kinds ⊢
    obtain ⟨before, own⟩ := kinds
    rw [(execute_keepsReplay (own earlier (by simp))).of_runs runs, ih found before]
    simp [and_assoc]

/-- What two polls in order are told reads the same exactly if the request is kept: where the first
was told of it, the second finds it again unless it replays or the store fails. -/
theorem cancellations_alike_iff {buffer : OutBuf} {before again : ExecSession}
    {trace retrace : Trace} (asked : AsksOnce engine before trace)
    (reasked : AsksOnce engine again retrace)
    (across : ∀ observed ∈ trace, ∀ repeated ∈ retrace, ∀ reason,
      shownCancellation observed = some (some reason) → shownCancellation repeated ≠ some none) :
    (toldCancellation retrace).map (shownText buffer) =
        (toldCancellation trace).map (shownText buffer) ↔
      ToldAgain buffer trace again retrace := by
  unfold AsksOnce at asked reasked
  unfold ToldAgain
  split at reasked
  · rename_i forward
    obtain ⟨answer, rfl⟩ := reasked
    split at asked
    · obtain ⟨first, rfl⟩ := asked
      have crossing := across _ mem_cons_self _ mem_cons_self
      rcases first with _ | ⟨_ | _, reason⟩ <;> rcases answer with _ | ⟨_ | _, later⟩ <;>
        simp_all
    · subst asked
      rcases answer with _ | ⟨_ | _, later⟩ <;> simp_all
  · subst reasked
    split at asked
    · obtain ⟨first, rfl⟩ := asked
      rcases first with _ | ⟨_ | _, reason⟩ <;> simp_all
    · subst asked
      simp

/-- In every run and whenever its cancellation is requested, the polls for it answer the same again
exactly if one that was told of it is not made again in replay and the reason reads the same, and
one that was told of none is made again in replay or before the request. A poll behind polls and
service calls is made in replay exactly if the segment has loaded rows and each of the calls has
found a record. -/
theorem cancellation_polled_again_iff (run : RunOn cancelWorld () engine guest cuts) :
    (Recurs CancellationPolledAgain (guestRun engine guest cuts) ↔
        Recurs CancellationKept (guestRun engine guest cuts)) ∧
      ∀ segment ∈ guestRun engine guest cuts, ∀ index step, segment.steps[index]? = some step →
        (∀ earlier ∈ segment.steps.take index, earlier.call.pollsOrCalls = true) →
        (step.before.isReplay = true ↔ segment.loaded ≠ [] ∧ ∀ earlier ∈ segment.steps.take index,
          earlier.call.cancellationBuffer = none → earlier.before.current.isSome = true) := by
  refine ⟨recurs_congr run.stillRequested fun step again _ _ crossing ran reran => ?_, ?_⟩
  · obtain ⟨call, before, trace, outcome⟩ := step
    obtain ⟨recalled, rebefore, retrace, reoutcome⟩ := again
    unfold CancellationPolledAgain CancellationKept
    cases call with
    | pollCancellation buffer =>
      by_cases same : recalled = .pollCancellation buffer
      · subst same
        have answers := pollCancellation_told.of_runs ran fun _ _ => trivial
        have reanswers := pollCancellation_told.of_runs reran fun _ _ => trivial
        cases outcome with
        | none => simp
        | some result =>
          cases reoutcome with
          | none => simp
          | some repeated =>
            obtain ⟨told, asked⟩ := answers result rfl
            obtain ⟨retold, reasked⟩ := reanswers repeated rfl
            simp only [GuestCall.cancellationBuffer, isSome_some, mem_some_iff, forall_eq',
              forall_const, told, retold, ToldCall.mk.injEq, true_and, pollReply_inj]
            exact cancellations_alike_iff asked reasked crossing
      · simp [same]
    | _ => simp [GuestCall.cancellationBuffer]
  · intro segment member index step
    obtain ⟨number, found⟩ := mem_iff_getElem?.mp member
    obtain ⟨opening, scripts, opens⟩ := Host.run_segment cuts found
    rw [opens]
    intro made kinds
    have loads : ((guestHost engine).load opening segment.loaded).isReplay = true ↔
        segment.loaded ≠ [] := by
      simp [guestHost, Engine.openSession]
    rw [segment_replays_iff made kinds, loads]

/-- A guest that polls for a cancellation and then records an event. -/
def pollsThenRecords : Guest GuestCall ToldCall :=
  inTurn [.pollCancellation roomy, .host (.sideEffect "value" roomy)]

/-- The cancellation is requested before the run, which is cut behind the event. -/
def cancelledEarly : List Cut :=
  [cut { cancelled := true } [8, 8], cut { cancelled := true } [8, 8]]

/-- The run, in which every answer shows the request. -/
def cancelledEarlyRun : RunOn cancelWorld () {} pollsThenRecords cancelledEarly where
  state := some ""
  path := World.pathOf (fun _ state _ => state) (some "")
    ((guestObservations (guestRun {} pollsThenRecords cancelledEarly)).map fun observed => ((), observed))
  valid := World.pathOf_valid (by decide +kernel)
  followed := by
    rw [World.observedBy_pathOf]
    simp

/-- A poll that reported a cancellation reports none in the next segment, which replays it. -/
theorem cancellation_forgotten_on_replay :
    ∃ _ : RunOn cancelWorld () {} pollsThenRecords cancelledEarly,
      (∀ segment ∈ guestRun {} pollsThenRecords cancelledEarly, segment.Persists) ∧
        ¬ Recurs CancellationPolledAgain (guestRun {} pollsThenRecords cancelledEarly) :=
  ⟨cancelledEarlyRun, by decide +kernel, by decide +kernel⟩

end PollCancellation

end Cleat
