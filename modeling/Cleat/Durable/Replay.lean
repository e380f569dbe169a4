import Cleat.Durable.Program

/-!
# Durable execution by replay

A host answers the calls of a deterministic guest and leaves rows behind in a
durable store. The guest's memory is not durable: when a worker dies or a call
suspends, the next segment starts the guest again from its first call, over a
session loaded from the rows. Such a host keeps its promise when the guest cannot
tell that this happened.

The abstract model of that promise is a memo: the calls that have been answered,
in order, each with its reply. An `Account` of a host says which memo a set of
rows stands for, and has two obligations. A call that is in the memo is answered
from it, and a call that is not extends it. `Account.run_keeps` derives from these,
for runs of any number of segments cut at any points, that every call answered
once is answered the same way in every later segment.
-/
namespace Durable

open List

variable {Q : Type} {A : Q → Type} {Call Reply Row σ Seed V : Type}

/-- A host: how it executes a call in a session, which session it opens over the
rows it loads under the circumstances of a segment, what an answered query does to the
rows, which replies tell the guest to unwind, and which sessions are parked. A parked
session is one whose segment will be repeated whatever the guest still does in it. -/
structure Host (Q : Type) (A : Q → Type) (Call Reply Row σ Seed : Type) where
  execute : Call → σ → Program Q A (Reply × σ)
  load : Seed → List Row → σ
  write : List Row → Observation Q A → List Row
  suspends : Reply → Bool
  parked : σ → Bool

/-- A deterministic guest: the replies it has seen decide its next call, or that
it is finished. -/
abbrev Guest (Call Reply : Type) := List Reply → Option Call

/-- One call as it was executed in a segment. The outcome is absent when the
worker died before the call returned. -/
structure Step (Q : Type) (A : Q → Type) (Call Reply σ : Type) where
  call : Call
  before : σ
  trace : List (Observation Q A)
  outcome : Option (Reply × σ)

/-- One segment: the rows it loaded, the replies that earlier segments had already
given to the guest, and the calls it made. -/
structure Segment (Q : Type) (A : Q → Type) (Call Reply Row σ : Type) where
  loaded : List Row
  known : List Reply
  steps : List (Step Q A Call Reply σ)

/-- Every step of a segment meets a condition on the reply its call may already have
had, the call, the session it was made in and what it observed. -/
def Segment.Meets (Allowed : Option Reply → Call → σ → List (Observation Q A) → Prop)
    (segment : Segment Q A Call Reply Row σ) : Prop :=
  ∀ (index : Nat) (step : Step Q A Call Reply σ), segment.steps[index]? = some step →
    Allowed segment.known[index]? step.call step.before step.trace

instance {Allowed : Option Reply → Call → σ → List (Observation Q A) → Prop}
    [∀ known call session trace, Decidable (Allowed known call session trace)]
    (segment : Segment Q A Call Reply Row σ) : Decidable (segment.Meets Allowed) :=
  decidable_of_iff (∀ numbered ∈ segment.steps.zipIdx,
      Allowed segment.known[numbered.2]? numbered.1.call numbered.1.before numbered.1.trace) <| by
    simp [Segment.Meets, mem_zipIdx_iff_getElem?, Prod.forall]
    exact forall_comm

/-- Every call of a segment and the call at its position in every later segment are
related. -/
def Recurs (relates : Step Q A Call Reply σ → Step Q A Call Reply σ → Prop)
    (run : List (Segment Q A Call Reply Row σ)) : Prop :=
  run.Pairwise fun first second => ∀ both ∈ first.steps.zip second.steps, relates both.1 both.2

instance {relates : Step Q A Call Reply σ → Step Q A Call Reply σ → Prop}
    [∀ step again, Decidable (relates step again)] (run : List (Segment Q A Call Reply Row σ)) :
    Decidable (Recurs relates run) :=
  inferInstanceAs (Decidable (List.Pairwise _ run))

theorem recurs_iff {relates : Step Q A Call Reply σ → Step Q A Call Reply σ → Prop}
    {run : List (Segment Q A Call Reply Row σ)} :
    Recurs relates run ↔ ∀ (early late index : Nat) (first second : Segment Q A Call Reply Row σ)
      (step again : Step Q A Call Reply σ), early < late → run[early]? = some first →
      run[late]? = some second → first.steps[index]? = some step →
      second.steps[index]? = some again → relates step again := by
  rw [Recurs, pairwise_iff_getElem]
  constructor
  · intro related early late index first second step again before one two made repeated
    obtain ⟨inside, rfl⟩ := List.getElem?_eq_some_iff.mp one
    obtain ⟨within, rfl⟩ := List.getElem?_eq_some_iff.mp two
    refine related early late inside within before (step, again) ?_
    exact mem_of_getElem? (getElem?_zip_eq_some.mpr ⟨made, repeated⟩)
  · intro related early late inside within before both member
    obtain ⟨index, found⟩ := mem_iff_getElem?.mp member
    obtain ⟨made, repeated⟩ := getElem?_zip_eq_some.mp found
    exact related early late index _ _ both.1 both.2 before (getElem?_eq_getElem inside)
      (getElem?_eq_getElem within) made repeated

namespace Host

variable (host : Host Q A Call Reply Row σ Seed)

/-- The reply a guest carries on with: none if the call was cut or suspends. -/
def returned : Option (Reply × σ) → Option (Reply × σ)
  | none => none
  | some (reply, after) => if host.suspends reply then none else some (reply, after)

/-- A reply that is final: the guest carries on with it in a session that is not parked. -/
def answered (outcome : Option (Reply × σ)) : Option (Reply × σ) :=
  (host.returned outcome).filter fun result => !host.parked result.2

/-- Run the guest in one session. Each script answers the queries of one call; the
segment ends when the scripts do, when a call is cut or suspends, or when the guest
is finished. -/
def segment (guest : Guest Call Reply) :
    σ → List Reply → List (Script Q A) → List (Step Q A Call Reply σ)
  | _, _, [] => []
  | session, replies, script :: scripts =>
    match guest replies with
    | none => []
    | some call =>
      let result := (host.execute call session).run script
      ⟨call, session, result.1, result.2⟩ ::
        match host.returned result.2 with
        | none => []
        | some (reply, after) => segment guest after (replies ++ [reply]) scripts

/-- The rows after the interactions of one call. -/
def writeAll (rows : List Row) (trace : List (Observation Q A)) : List Row :=
  trace.foldl host.write rows

/-- A call that changes no rows and with which the guest does not carry on. -/
structure Halts (trace : List (Observation Q A)) (outcome : Option (Reply × σ)) : Prop where
  unchanged : ∀ rows, host.writeAll rows trace = rows
  stops : host.returned outcome = none

/-- The rows a segment leaves to its successor. -/
def rowsAfter (rows : List Row) (steps : List (Step Q A Call Reply σ)) : List Row :=
  steps.foldl (fun rows step => host.writeAll rows step.trace) rows

/-- The final replies a segment gave to the guest, in call order. -/
def replies (steps : List (Step Q A Call Reply σ)) : List Reply :=
  steps.filterMap fun step => (host.answered step.outcome).map Prod.fst

/-- The rows as they were when a segment made its call at a position. -/
def rowsAt (segment : Segment Q A Call Reply Row σ) (index : Nat) : List Row :=
  host.rowsAfter segment.loaded (segment.steps.take index)

/-- Run the guest to wherever the scripts take it, one segment per element. -/
def run (guest : Guest Call Reply) :
    List Row → List Reply → List (Seed × List (Script Q A)) → List (Segment Q A Call Reply Row σ)
  | _, _, [] => []
  | rows, known, (seed, scripts) :: rest =>
    let steps := host.segment guest (host.load seed rows) [] scripts
    ⟨rows, known, steps⟩ ::
      run guest (host.rowsAfter rows steps)
        (known ++ (host.replies steps).drop known.length) rest

end Host

/-- A memo entry: a call, the reply it is answered with, what can be seen of the
session afterwards, and whether the rows alone determine the reply. The last is
false of a reply that is known only because the guest has seen it. -/
structure Entry (Call Reply V : Type) where
  call : Call
  reply : Reply
  view : V
  recorded : Bool

/-- The view after the last entry of a memo. -/
def lastView : V → List (Entry Call Reply V) → V
  | before, [] => before
  | _, entry :: memo => lastView entry.view memo

@[simp] theorem lastView_snoc (before : V) (memo : List (Entry Call Reply V))
    (entry : Entry Call Reply V) : lastView before (memo ++ [entry]) = entry.view := by
  induction memo generalizing before with
  | nil => rfl
  | cons first memo ih => exact ih first.view

/-- An account of a host for one guest: the memo its rows stand for, where a session
stands in that memo, and the conditions under which it is kept.

`Allowed` is the condition on the circumstances of one call, given the reply that an
earlier segment may already have returned for it. `Quiet` is what is known of a call
answered from the memo and of the views before and after it, `Fresh` of one that is not,
made over the given rows after the given memo, and `Idle` of one that is made although its
segment will be repeated, which must come to nothing. The rank of a session's view does
not fall. -/
structure Account (host : Host Q A Call Reply Row σ Seed) (guest : Guest Call Reply) (V : Type) where
  view : σ → V
  initial : V
  rank : V → Nat
  Allowed : Option Reply → Call → σ → List (Observation Q A) → Prop
  Quiet : V → Call → V → List (Observation Q A) → Prop
  Fresh : List Row → List (Entry Call Reply V) → Call → List (Observation Q A) → Prop
  Idle : List (Observation Q A) → Prop
  Explains : List Row → List (Entry Call Reply V) → Prop
  At : List Row → List (Entry Call Reply V) → List (Entry Call Reply V) → σ → Prop
  seen : ∀ rows past rest session, At rows past rest session →
    view session = lastView initial past
  active : ∀ rows past rest session, At rows past rest session → host.parked session = false
  rises : ∀ rows past entry rest, Explains rows (past ++ entry :: rest) →
    rank (lastView initial past) ≤ rank entry.view
  start : Explains [] []
  load : ∀ seed rows memo, Explains rows memo → At rows [] memo (host.load seed rows)
  replay : ∀ rows past entry rest known session trace outcome,
    Explains rows (past ++ entry :: rest) → At rows past (entry :: rest) session →
    (known = some entry.reply ∨ known = none ∧ entry.recorded = true) →
    Allowed known entry.call session trace →
    (host.execute entry.call session).Runs trace outcome →
    Explains (host.writeAll rows trace) (past ++ entry :: rest) ∧
      Quiet (view session) entry.call entry.view trace ∧
      ∀ reply after, outcome = some (reply, after) →
        reply = entry.reply ∧ host.suspends reply = false ∧ host.parked after = false ∧
          view after = entry.view ∧ At (host.writeAll rows trace) (past ++ [entry]) rest after
  frontier : ∀ rows past call session trace outcome,
    Explains rows past → At rows past [] session →
    guest (past.map Entry.reply) = some call →
    Allowed none call session trace →
    (host.execute call session).Runs trace outcome →
    Fresh rows past call trace ∧
      match host.answered outcome with
      | some (reply, after) =>
        ∃ recorded,
          Explains (host.writeAll rows trace) (past ++ [⟨call, reply, view after, recorded⟩]) ∧
          At (host.writeAll rows trace) (past ++ [⟨call, reply, view after, recorded⟩]) [] after
      | none =>
        (Explains (host.writeAll rows trace) past ∨
          ∃ entry, entry.call = call ∧ entry.recorded = true ∧
            Explains (host.writeAll rows trace) (past ++ [entry])) ∧
        ∀ reply after, host.returned outcome = some (reply, after) →
          ∀ known next later ending, Allowed known next after later →
            (host.execute next after).Runs later ending → Idle later ∧ host.Halts later ending

namespace Account

variable {host : Host Q A Call Reply Row σ Seed} {guest : Guest Call Reply}
  (account : Account host guest V)

/-- The memo holds calls this guest makes when it is given the memo's replies. -/
def Follows (guest : Guest Call Reply) (memo : List (Entry Call Reply V)) : Prop :=
  ∀ past entry rest, memo = past ++ entry :: rest →
    guest (past.map Entry.reply) = some entry.call

/-- The replies the guest has been given are the memo's, and whatever else the memo
holds is determined by the rows. -/
structure Known (known : List Reply) (memo : List (Entry Call Reply V)) : Prop where
  agrees : known <+: memo.map Entry.reply
  recorded : ∀ index entry, memo[index]? = some entry → known.length ≤ index →
    entry.recorded = true

/-- What a step at a position keeps, between the memo its segment began with and
the memo it ended with, when it was made over the given rows. -/
structure Kept (rows : List Row) (before after : List (Entry Call Reply V)) (position : Nat)
    (step : Step Q A Call Reply σ) : Prop where
  reached : position ≤ after.length
  seen : account.view step.before = lastView account.initial (after.take position)
  called : guest ((after.take position).map Entry.reply) = some step.call
  replayed : ∀ entry, before[position]? = some entry →
    step.call = entry.call ∧
      account.Quiet (account.view step.before) entry.call entry.view step.trace ∧
      ∀ reply session, step.outcome = some (reply, session) →
        reply = entry.reply ∧ host.suspends reply = false ∧ host.parked session = false ∧
          account.view session = entry.view
  fresh : before.length ≤ position → account.Fresh rows (after.take position) step.call step.trace
  answered : ∀ reply session, host.answered step.outcome = some (reply, session) →
    ∃ entry, after[position]? = some entry ∧ entry.call = step.call ∧
      entry.reply = reply ∧ entry.view = account.view session

/-- What is known of a step that was made in a parked session, beyond the memo. -/
structure Halted (after : List (Entry Call Reply V)) (position : Nat)
    (step : Step Q A Call Reply σ) : Prop where
  beyond : after.length ≤ position
  idle : account.Idle step.trace
  halts : host.Halts step.trace step.outcome

/-- A step keeps its place in the memo, or has none and comes to nothing. -/
structure Placed (rows : List Row) (before after : List (Entry Call Reply V)) (position : Nat)
    (step : Step Q A Call Reply σ) : Prop where
  kept : host.parked step.before = false → account.Kept rows before after position step
  halted : host.parked step.before = true → account.Halted after position step

/-- The memos between the segments of a run. They grow, the rows behind a segment stand for the
next one, and every step has its place. -/
structure Stages (run : List (Segment Q A Call Reply Row σ))
    (stage : Nat → List (Entry Call Reply V)) : Prop where
  grows : ∀ number, stage number <+: stage (number + 1)
  explained : ∀ {number segment}, run[number]? = some segment →
    ∃ rows, account.Explains rows (stage (number + 1))
  placed : ∀ {number segment index step}, run[number]? = some segment →
    segment.steps[index]? = some step → account.Placed (host.rowsAt segment index) (stage number)
      (stage (number + 1)) index step

variable {memo grown past rest before : List (Entry Call Reply V)}
  {position number index early late one two lower upper : Nat} {entry : Entry Call Reply V}
  {session after : σ} {replies earlier known : List Reply} {call : Call}
  {scripts : List (Script Q A)} {step again : Step Q A Call Reply σ}
  {steps following : List (Step Q A Call Reply σ)} {rows : List Row} {reply : Reply}
  {outcome : Option (Reply × σ)} {trace : List (Observation Q A)} {result : Reply × σ}
  {segments : List (Seed × List (Script Q A))} {segment first second : Segment Q A Call Reply Row σ}
  {stage : Nat → List (Entry Call Reply V)}

/-- The prefix of a memo is unchanged at its positions when the memo grows. -/
theorem lookup_of_grows (grows : memo <+: grown) (found : memo[position]? = some entry) :
    grown[position]? = some entry := by
  obtain ⟨extra, rfl⟩ := grows
  have inside : position < memo.length := (List.getElem?_eq_some_iff.mp found).1
  rw [getElem?_append_left inside]
  exact found

/-- A segment's first call and what follows it. -/
theorem segment_cons (next : guest replies = some call) (script : Script Q A)
    (scripts : List (Script Q A)) :
    host.segment guest session replies (script :: scripts) =
      ⟨call, session, ((host.execute call session).run script).1,
        ((host.execute call session).run script).2⟩ ::
        match host.returned ((host.execute call session).run script).2 with
        | none => []
        | some (reply, after) => host.segment guest after (replies ++ [reply]) scripts := by
  rw [Host.segment, next]

/-- The first call of a segment is made in the session it starts with. -/
theorem segment_head (made : host.segment guest session replies scripts = step :: steps) :
    step.before = session := by
  cases scripts with
  | nil => simp [Host.segment] at made
  | cons script scripts =>
    cases next : guest replies with
    | none => simp [Host.segment, next] at made
    | some call =>
      rw [segment_cons next] at made
      rw [← (cons.inj made).1]

/-- What one segment achieves from a session that stands after `past` with `rest`
ahead of it: the memo grows, the rows still stand for it, every step keeps its
place in it, and the replies given to the guest are the memo's. -/
structure Achieves (memo : List (Entry Call Reply V)) (rows : List Row) (past : Nat)
    (earlier : List Reply) (steps : List (Step Q A Call Reply σ))
    (grown : List (Entry Call Reply V)) : Prop where
  grows : memo <+: grown
  follows : Follows guest grown
  explains : account.Explains (host.rowsAfter rows steps) grown
  placed : ∀ index step, steps[index]? = some step →
    account.Placed (host.rowsAfter rows (steps.take index)) memo grown (past + index) step
  agrees : earlier ++ host.replies steps <+: grown.map Entry.reply
  recorded : ∀ index entry, grown[index]? = some entry → memo.length ≤ index →
    past + (host.replies steps).length ≤ index → entry.recorded = true

variable {account}

/-- A segment that makes no further call leaves the memo as it is. -/
theorem Achieves.stop (follows : Follows guest (past ++ rest))
    (explains : account.Explains rows (past ++ rest)) :
    account.Achieves (past ++ rest) rows past.length (past.map Entry.reply) [] (past ++ rest) where
  grows := prefix_rfl
  follows := follows
  explains := explains
  placed := by simp
  agrees := by simp [Host.replies]
  recorded := by
    intro index entry found beyond
    have inside := (List.getElem?_eq_some_iff.mp found).1
    omega

/-- The calls behind one with no final reply: there are none, or one that comes to
nothing. -/
def Stops (account : Account host guest V) (following : List (Step Q A Call Reply σ)) : Prop :=
  following = [] ∨ ∃ step, following = [step] ∧ host.parked step.before = true ∧
    account.Idle step.trace ∧ host.Halts step.trace step.outcome

/-- A segment whose last call has no final reply ends with that call. -/
theorem Achieves.last (grows : memo <+: grown) (follows : Follows guest grown)
    (explains : account.Explains (host.writeAll rows step.trace) grown)
    (active : host.parked step.before = false) (kept : account.Kept rows memo grown position step)
    (unanswered : host.answered step.outcome = none)
    (short : following = [] ∨ grown.length ≤ position + 1) (stops : account.Stops following)
    (agrees : earlier <+: grown.map Entry.reply)
    (recorded : ∀ index entry, grown[index]? = some entry → memo.length ≤ index →
      entry.recorded = true) :
    account.Achieves memo rows position earlier (step :: following) grown := by
  have first : account.Placed rows memo grown position step :=
    ⟨fun _ => kept, fun parked => absurd (active.symm.trans parked) (by simp)⟩
  rcases stops with rfl | ⟨halted, rfl, parked, idle, halts⟩
  · refine ⟨grows, follows, explains, ?_, by simpa [Host.replies, unanswered] using agrees,
      fun index entry found beyond _ => recorded index entry found beyond⟩
    intro index other found
    cases index with
    | zero =>
      cases found
      exact first
    | succ index => simp at found
  · have short := short.resolve_left (by simp)
    have silent : host.answered halted.outcome = none := by
      simp [Host.answered, halts.stops]
    refine ⟨grows, follows, ?_, ?_, by simpa [Host.replies, unanswered, silent] using agrees,
      fun index entry found beyond _ => recorded index entry found beyond⟩
    · rw [Host.rowsAfter, foldl_cons, foldl_cons, foldl_nil, halts.unchanged]
      exact explains
    · intro index other found
      rcases index with _ | _ | index
      · cases found
        exact first
      · cases found
        exact ⟨fun active => absurd (active.symm.trans parked) (by simp),
          fun _ => ⟨short, idle, halts⟩⟩
      · simp at found

/-- A call with a final reply in front of the rest of a segment. The rest may start from
a longer memo, namely when this call extended it. -/
theorem Achieves.cons {longer : List (Entry Call Reply V)} (grows : memo <+: longer)
    (extended : longer = memo ∨ longer.length ≤ position + 1)
    (active : host.parked step.before = false) (kept : account.Kept rows memo grown position step)
    (answered : host.answered step.outcome = some (reply, after))
    (rest : account.Achieves longer (host.writeAll rows step.trace) (position + 1)
      (earlier ++ [reply]) steps grown) :
    account.Achieves memo rows position earlier (step :: steps) grown where
  grows := grows.trans rest.grows
  follows := rest.follows
  explains := rest.explains
  placed := by
    intro index other found
    cases index with
    | zero =>
      cases found
      exact ⟨fun _ => kept, fun parked => absurd (active.symm.trans parked) (by simp)⟩
    | succ index =>
      have placed := rest.placed index other found
      rw [show position + (index + 1) = position + 1 + index by omega]
      refine ⟨fun active => ?_, placed.halted⟩
      have later := placed.kept active
      rcases extended with rfl | short
      · exact later
      · have beyond : longer.length ≤ position + 1 + index := by omega
        refine ⟨later.reached, later.seen, later.called, fun entry found => ?_,
          fun _ => later.fresh beyond, later.answered⟩
        have inside := (List.getElem?_eq_some_iff.mp found).1
        have := grows.length_le
        omega
  agrees := by
    have agrees := rest.agrees
    simpa [Host.replies, answered, append_assoc] using agrees
  recorded := by
    intro index entry found beyond unanswered
    have counted : (host.replies (step :: steps)).length = (host.replies steps).length + 1 := by
      simp [Host.replies, answered]
    refine rest.recorded index entry found ?_ (by omega)
    rcases extended with rfl | short
    · exact beyond
    · omega

/-- A reply the guest carries on with is the call's own outcome. -/
theorem returned_eq_some (returned : host.returned outcome = some (reply, after)) :
    outcome = some (reply, after) ∧ host.suspends reply = false := by
  cases outcome with
  | none => simp [Host.returned] at returned
  | some pair =>
    obtain ⟨given, session⟩ := pair
    cases suspended : host.suspends given <;> simp [Host.returned, suspended] at returned
    obtain ⟨rfl, rfl⟩ := returned
    exact ⟨rfl, suspended⟩

/-- A final reply is one the guest carries on with in a session that is not parked. -/
theorem answered_eq_some (answered : host.answered outcome = some (reply, after)) :
    host.returned outcome = some (reply, after) ∧ host.parked after = false := by
  simpa [Host.answered, Option.filter_eq_some_iff] using answered

/-- The entry a session stands in front of. -/
theorem lookup_here (past rest : List (Entry Call Reply V)) (entry : Entry Call Reply V) :
    (past ++ entry :: rest)[past.length]? = some entry := by
  simp

/-- A call answered from the memo keeps its place in it. -/
theorem kept_of_replay (grows : past ++ entry :: rest <+: grown)
    (seen : account.view step.before = lastView account.initial past)
    (next : guest (past.map Entry.reply) = some entry.call) (same : step.call = entry.call)
    (quiet : account.Quiet (account.view step.before) entry.call entry.view step.trace)
    (answers : ∀ reply session, step.outcome = some (reply, session) →
      reply = entry.reply ∧ host.suspends reply = false ∧ host.parked session = false ∧
        account.view session = entry.view) :
    account.Kept rows (past ++ entry :: rest) grown past.length step where
  reached := ((prefix_append _ _).trans grows).length_le
  seen := by
    obtain ⟨extra, rfl⟩ := grows
    rw [seen, append_assoc, take_left]
  called := by
    obtain ⟨extra, rfl⟩ := grows
    rw [same, append_assoc, take_left]
    exact next
  replayed := by
    intro other found
    rw [lookup_here] at found
    cases found
    exact ⟨same, quiet, answers⟩
  fresh := by
    intro beyond
    simp only [length_append, length_cons] at beyond
    omega
  answered := by
    intro reply session final
    obtain ⟨returned, _⟩ := answered_eq_some final
    obtain ⟨replied, _, _, viewed⟩ := answers reply session (returned_eq_some returned).1
    exact ⟨entry, lookup_of_grows grows (lookup_here _ _ _), same.symm, replied.symm,
      viewed.symm⟩

/-- A call that extended the memo, or was cut before it could, keeps its place. -/
theorem kept_of_frontier (grows : past <+: grown)
    (seen : account.view step.before = lastView account.initial past)
    (next : guest (past.map Entry.reply) = some step.call)
    (fresh : account.Fresh rows past step.call step.trace)
    (answered : ∀ reply session, host.answered step.outcome = some (reply, session) →
      ∃ entry, grown[past.length]? = some entry ∧ entry.call = step.call ∧
        entry.reply = reply ∧ entry.view = account.view session) :
    account.Kept rows past grown past.length step where
  reached := grows.length_le
  seen := by
    obtain ⟨extra, rfl⟩ := grows
    rw [seen, take_left]
  called := by
    obtain ⟨extra, rfl⟩ := grows
    rw [take_left]
    exact next
  replayed := by
    intro entry found
    simp at found
  fresh := by
    intro _
    obtain ⟨extra, rfl⟩ := grows
    rw [take_left]
    exact fresh
  answered := answered

/-- A memo stays one the guest produces when the guest's next call is added. -/
theorem Follows.snoc (follows : Follows guest past)
    (next : guest (past.map Entry.reply) = some entry.call) : Follows guest (past ++ [entry]) := by
  intro before other rest split
  rcases eq_nil_or_concat rest with rfl | ⟨front, final, rfl⟩
  · obtain ⟨rfl, same⟩ := append_inj' split rfl
    cases same
    exact next
  · rw [concat_eq_append, ← cons_append, ← append_assoc] at split
    obtain ⟨rfl, _⟩ := append_inj' split rfl
    exact follows before other front rfl

/-- The part of a segment that starts with a call answered from the memo, given
what the calls after it achieve. -/
theorem replay_achieves {known : Option Reply}
    (following : Reply → σ → List (Step Q A Call Reply σ))
    (explains : account.Explains rows (past ++ entry :: rest))
    (standing : account.At rows past (entry :: rest) session)
    (follows : Follows guest (past ++ entry :: rest))
    (expected : known = some entry.reply ∨ known = none ∧ entry.recorded = true)
    (permitted : account.Allowed known entry.call session trace)
    (runs : (host.execute entry.call session).Runs trace outcome)
    (later : ∀ after, host.returned outcome = some (entry.reply, after) →
      account.Explains (host.writeAll rows trace) (past ++ entry :: rest) →
      account.At (host.writeAll rows trace) (past ++ [entry]) rest after →
      ∃ grown, account.Achieves (past ++ entry :: rest) (host.writeAll rows trace)
        (past.length + 1) (past.map Entry.reply ++ [entry.reply])
        (following entry.reply after) grown) :
    ∃ grown, account.Achieves (past ++ entry :: rest) rows past.length (past.map Entry.reply)
      (⟨entry.call, session, trace, outcome⟩ ::
        match host.returned outcome with
        | none => []
        | some (reply, after) => following reply after) grown := by
  obtain ⟨explained, quiet, answers⟩ :=
    account.replay rows past entry rest known session trace outcome explains standing expected
      permitted runs
  have seen := account.seen _ _ _ _ standing
  have active := account.active _ _ _ _ standing
  have next := follows past entry rest rfl
  have replied : ∀ reply after, outcome = some (reply, after) →
      reply = entry.reply ∧ host.suspends reply = false ∧ host.parked after = false ∧
        account.view after = entry.view := by
    intro reply after given
    obtain ⟨same, resumes, active, viewed, _⟩ := answers reply after given
    exact ⟨same, resumes, active, viewed⟩
  cases returned : host.returned outcome with
  | none =>
    refine ⟨past ++ entry :: rest, .last prefix_rfl follows explained active
      (kept_of_replay prefix_rfl seen next rfl quiet replied)
      (by simp [Host.answered, returned]) (.inl rfl) (.inl rfl) (by simp) ?_⟩
    intro index other found beyond
    have inside := (List.getElem?_eq_some_iff.mp found).1
    omega
  | some pair =>
    obtain ⟨reply, after⟩ := pair
    obtain ⟨rfl, _, unparked, _, moved⟩ := answers reply after (returned_eq_some returned).1
    obtain ⟨grown, achieved⟩ := later after returned explained moved
    have final : host.answered outcome = some (entry.reply, after) := by
      simp [Host.answered, returned, unparked]
    exact ⟨grown, .cons prefix_rfl (.inl rfl) active
      (kept_of_replay achieved.grows seen next rfl quiet replied) final achieved⟩

/-- A segment that ends at the end of the memo with a call that has no final reply. -/
theorem unanswered_achieves (follows : Follows guest past)
    (active : host.parked step.before = false)
    (seen : account.view step.before = lastView account.initial past)
    (next : guest (past.map Entry.reply) = some step.call)
    (fresh : account.Fresh rows past step.call step.trace)
    (unanswered : host.answered step.outcome = none) (stops : account.Stops following)
    (left : account.Explains (host.writeAll rows step.trace) past ∨
      ∃ entry, entry.call = step.call ∧ entry.recorded = true ∧
        account.Explains (host.writeAll rows step.trace) (past ++ [entry])) :
    ∃ grown, account.Achieves past rows past.length (past.map Entry.reply) (step :: following)
      grown := by
  rcases left with explained | ⟨entry, same, recorded, explained⟩
  · refine ⟨past, .last prefix_rfl follows explained active
      (kept_of_frontier prefix_rfl seen next fresh (by simp [unanswered])) unanswered
      (.inr (by simp)) stops (by simp) ?_⟩
    intro index other found beyond
    have inside := (List.getElem?_eq_some_iff.mp found).1
    omega
  · have here : (past ++ [entry])[past.length]? = some entry := lookup_here past [] entry
    refine ⟨past ++ [entry], .last (prefix_append _ _)
      (follows.snoc (same ▸ next)) explained active
      (kept_of_frontier (prefix_append _ _) seen next fresh (by simp [unanswered])) unanswered
      (.inr (by simp)) stops (by simp) ?_⟩
    intro index other found beyond
    have inside := (List.getElem?_eq_some_iff.mp found).1
    have last : index = past.length := by
      rw [length_append, length_singleton] at inside
      omega
    subst last
    rw [here] at found
    cases found
    exact recorded

/-- The part of a segment that starts at the end of the memo, given what the calls
after it achieve and that a call in a parked session comes to nothing. -/
theorem frontier_achieves (following : Reply → σ → List (Step Q A Call Reply σ))
    (explains : account.Explains rows past) (standing : account.At rows past [] session)
    (follows : Follows guest past) (next : guest (past.map Entry.reply) = some call)
    (permitted : account.Allowed none call session trace)
    (runs : (host.execute call session).Runs trace outcome)
    (ends : ∀ reply after, host.returned outcome = some (reply, after) →
      host.parked after = true →
      (∀ known next later ending, account.Allowed known next after later →
        (host.execute next after).Runs later ending →
        account.Idle later ∧ host.Halts later ending) →
      account.Stops (following reply after))
    (later : ∀ reply after recorded, host.returned outcome = some (reply, after) →
      account.Explains (host.writeAll rows trace)
        (past ++ [⟨call, reply, account.view after, recorded⟩]) →
      account.At (host.writeAll rows trace)
        (past ++ [⟨call, reply, account.view after, recorded⟩]) [] after →
      ∃ grown, account.Achieves (past ++ [⟨call, reply, account.view after, recorded⟩])
        (host.writeAll rows trace) (past.length + 1) (past.map Entry.reply ++ [reply])
        (following reply after) grown) :
    ∃ grown, account.Achieves past rows past.length (past.map Entry.reply)
      (⟨call, session, trace, outcome⟩ ::
        match host.returned outcome with
        | none => []
        | some (reply, after) => following reply after) grown := by
  obtain ⟨fresh, extended⟩ :=
    account.frontier rows past call session trace outcome explains standing next permitted runs
  have active := account.active _ _ _ _ standing
  cases answered : host.answered outcome with
  | none =>
    simp only [answered] at extended
    obtain ⟨left, stops⟩ := extended
    have alone : account.Stops (match host.returned outcome with
        | none => []
        | some (reply, after) => following reply after) := by
      cases returned : host.returned outcome with
      | none => exact .inl rfl
      | some pair =>
        have parked : host.parked pair.2 = true := by
          simpa [Host.answered, returned, Option.filter_eq_none_iff] using answered
        exact ends pair.1 pair.2 returned parked (stops pair.1 pair.2 returned)
    exact unanswered_achieves follows active (account.seen _ _ _ _ standing) next fresh answered
      alone left
  | some pair =>
    obtain ⟨reply, after⟩ := pair
    obtain ⟨returned, _⟩ := answered_eq_some answered
    simp only [answered] at extended
    obtain ⟨recorded, explained, moved⟩ := extended
    obtain ⟨grown, achieved⟩ := later reply after recorded returned explained moved
    have found := lookup_of_grows achieved.grows (lookup_here past [] _)
    have kept : account.Kept rows past grown past.length ⟨call, session, trace, outcome⟩ := by
      refine kept_of_frontier ((prefix_append _ _).trans achieved.grows)
        (account.seen _ _ _ _ standing) next fresh ?_
      intro given other same
      cases answered.symm.trans same
      exact ⟨_, found, rfl, rfl, rfl⟩
    rw [returned]
    exact ⟨grown, Achieves.cons (prefix_append _ _) (.inr (by simp)) active kept answered
      achieved⟩

/-- A guest that carries on in a parked session makes at most one more call there. -/
theorem segment_stops (parked : host.parked session = true)
    (stops : ∀ known next later ending, account.Allowed known next session later →
      (host.execute next session).Runs later ending →
      account.Idle later ∧ host.Halts later ending)
    (allowed : ∀ step steps, host.segment guest session replies scripts = step :: steps →
      ∃ known, account.Allowed known step.call step.before step.trace) :
    account.Stops (host.segment guest session replies scripts) := by
  cases scripts with
  | nil => exact .inl rfl
  | cons script scripts =>
    cases next : guest replies with
    | none => exact .inl (by simp [Host.segment, next])
    | some call =>
      rw [segment_cons next] at allowed ⊢
      obtain ⟨known, permitted⟩ := allowed _ _ rfl
      obtain ⟨idle, halts⟩ := stops _ _ _ _ permitted (Program.run_runs _ script)
      rw [halts.stops]
      exact .inr ⟨_, rfl, parked, idle, halts⟩

/-- Every segment keeps the memo it starts from.

Proof: by induction on the scripts, generalising the session's place in the memo.
In front of a remaining entry the guest repeats that entry's call, since it has seen
the entry's predecessors; the replay obligation then moves the session past it. At
the end of the memo the frontier obligation extends it. -/
theorem segment_achieves (scripts : List (Script Q A)) :
    ∀ (rows : List Row) (past rest : List (Entry Call Reply V)) (session : σ)
      (known : List Reply),
      account.Explains rows (past ++ rest) → account.At rows past rest session →
      Follows guest (past ++ rest) → known.length ≤ (past ++ rest).length →
      (∀ index entry, rest[index]? = some entry →
        known[past.length + index]? = some entry.reply ∨
          known[past.length + index]? = none ∧ entry.recorded = true) →
      (∀ index step,
        (host.segment guest session (past.map Entry.reply) scripts)[index]? = some step →
        account.Allowed known[past.length + index]? step.call step.before step.trace) →
      ∃ grown, account.Achieves (past ++ rest) rows past.length (past.map Entry.reply)
        (host.segment guest session (past.map Entry.reply) scripts) grown := by
  induction scripts with
  | nil =>
    intro rows past rest session known explains _ follows _ _ _
    exact ⟨past ++ rest, .stop follows explains⟩
  | cons script scripts ih =>
    intro rows past rest session known explains standing follows short expected allowed
    cases next : guest (past.map Entry.reply) with
    | none =>
      simp only [Host.segment, next]
      exact ⟨past ++ rest, .stop follows explains⟩
    | some call =>
      rw [segment_cons next] at allowed ⊢
      have permitted := allowed 0 _ rfl
      have runs := Program.run_runs (host.execute call session) script
      cases rest with
      | cons entry rest =>
        have same : call = entry.call :=
          Option.some.inj (next.symm.trans (follows past entry rest rfl))
        subst same
        refine replay_achieves (fun reply after =>
          host.segment guest after (past.map Entry.reply ++ [reply]) scripts)
          explains standing follows (expected 0 entry rfl) permitted runs ?_
        intro after returned explained moved
        have regrouped : past ++ entry :: rest = (past ++ [entry]) ++ rest := by simp
        have achieved := ih _ (past ++ [entry]) rest after known (regrouped ▸ explained)
          moved (regrouped ▸ follows) (regrouped ▸ short)
          (fun index other found => by
            have ahead := expected (index + 1) other found
            simpa [Nat.add_assoc, Nat.add_comm 1] using ahead)
          (fun index step found => by
            have ahead := allowed (index + 1) step (by simpa [returned] using found)
            simpa [Nat.add_assoc, Nat.add_comm 1] using ahead)
        simpa [← regrouped] using achieved
      | nil =>
        rw [append_nil] at explains follows short ⊢
        rw [Nat.add_zero, getElem?_eq_none short] at permitted
        refine frontier_achieves (fun reply after =>
          host.segment guest after (past.map Entry.reply ++ [reply]) scripts)
          explains standing follows next permitted runs ?_ ?_
        · intro reply after returned parked stops
          refine segment_stops parked stops ?_
          intro step steps made
          exact ⟨_, allowed 1 step (by simp [returned, made])⟩
        intro reply after recorded returned explained moved
        have achieved := ih _ (past ++ [⟨call, reply, account.view after, recorded⟩]) []
          after known (by simpa using explained) moved (by simpa using follows.snoc next)
          (by simp only [append_nil, length_append]; omega)
          (by simp)
          (fun index step found => by
            have ahead := allowed (index + 1) step (by simpa [returned] using found)
            simpa [Nat.add_assoc, Nat.add_comm 1] using ahead)
        simpa using achieved

/-- The replies known before a segment and those it gives extend each other, since
both are the memo's. -/
theorem Known.extend {given : List Reply} (before : Known known memo) (grows : memo <+: grown)
    (agrees : given <+: grown.map Entry.reply)
    (recorded : ∀ index entry, grown[index]? = some entry → memo.length ≤ index →
      given.length ≤ index → entry.recorded = true) :
    Known (known ++ given.drop known.length) grown where
  agrees := by
    have held : known <+: grown.map Entry.reply := before.agrees.trans (grows.map _)
    rcases Nat.le_total known.length given.length with shorter | longer
    · have same : known ++ given.drop known.length = given := by
        obtain ⟨rest, rfl⟩ := prefix_of_prefix_length_le held agrees shorter
        simp
      rw [same]
      exact agrees
    · rw [drop_eq_nil_of_le longer, append_nil]
      exact held
  recorded := by
    intro index entry found beyond
    rw [length_append, length_drop] at beyond
    rcases Nat.lt_or_ge index memo.length with inside | outside
    · obtain ⟨extra, rfl⟩ := grows
      rw [getElem?_append_left inside] at found
      exact before.recorded index entry found (by omega)
    · exact recorded index entry found outside (by omega)

/-- A reply known before a segment is the memo's, and an entry that is not yet known
is recorded. -/
theorem Known.expected (knows : Known known memo) (index : Nat) (entry : Entry Call Reply V)
    (found : memo[index]? = some entry) :
    known[index]? = some entry.reply ∨ known[index]? = none ∧ entry.recorded = true := by
  rcases Nat.lt_or_ge index known.length with inside | outside
  · left
    have agreed := prefix_iff_getElem?.mp knows.agrees index inside
    rw [getElem?_map, found] at agreed
    rw [getElem?_eq_getElem inside]
    exact agreed.symm
  · exact .inr ⟨getElem?_eq_none outside, knows.recorded index entry found outside⟩

/-- Every run keeps its memo, from any rows that stand for one. The stages are the
memos between its segments. -/
theorem run_keeps_from (segments : List (Seed × List (Script Q A))) :
    ∀ (rows : List Row) (known : List Reply) (memo : List (Entry Call Reply V)),
      account.Explains rows memo → Follows guest memo → Known known memo →
      (∀ segment ∈ host.run guest rows known segments, segment.Meets account.Allowed) →
      ∃ stage : Nat → List (Entry Call Reply V), stage 0 = memo ∧
        account.Stages (host.run guest rows known segments) stage := by
  induction segments with
  | nil =>
    intro rows known memo _ _ _ _
    exact ⟨fun _ => memo, rfl, fun _ => prefix_rfl, nofun, nofun⟩
  | cons opening segments ih =>
    obtain ⟨seed, scripts⟩ := opening
    intro rows known memo explains follows knows allowed
    rw [Host.run] at allowed ⊢
    simp only [mem_cons, forall_eq_or_imp] at allowed
    obtain ⟨permitted, allowed⟩ := allowed
    have short : known.length ≤ memo.length := by
      simpa using knows.agrees.length_le
    obtain ⟨grown, achieved⟩ := segment_achieves scripts rows [] memo
      (host.load seed rows) known explains (account.load seed rows memo explains) follows short
      (by simpa using knows.expected)
      (by simpa [Segment.Meets] using permitted)
    obtain ⟨stage, rfl, stages⟩ := ih _ _ grown achieved.explains achieved.follows
      (knows.extend achieved.grows (by simpa using achieved.agrees)
        (by simpa using achieved.recorded)) allowed
    refine ⟨fun number => number.casesOn memo stage, rfl, ?_, ?_, ?_⟩
    · intro number
      cases number with
      | zero => exact achieved.grows
      | succ number => exact stages.grows number
    · intro number segment found
      cases number with
      | zero => exact ⟨_, achieved.explains⟩
      | succ number => exact stages.explained found
    · intro number segment index step found made
      cases number with
      | zero =>
        cases found
        have placed := achieved.placed index step made
        rwa [length_nil, Nat.zero_add] at placed
      | succ number => exact stages.placed found made

variable (account)

/-- Every run from an empty store keeps its memo. -/
theorem run_keeps (segments : List (Seed × List (Script Q A)))
    (allowed : ∀ segment ∈ host.run guest [] [] segments, segment.Meets account.Allowed) :
    ∃ stage, account.Stages (host.run guest [] [] segments) stage := by
  have follows : Follows guest ([] : List (Entry Call Reply V)) := by
    intro past entry rest split
    simp at split
  have knows : Known ([] : List Reply) ([] : List (Entry Call Reply V)) :=
    ⟨prefix_rfl, by simp⟩
  obtain ⟨stage, _, stages⟩ := run_keeps_from segments [] [] [] account.start follows knows allowed
  exact ⟨stage, stages⟩

variable {account}

/-- A step with a final reply has its place in the memo. -/
theorem Placed.of_answered {after : List (Entry Call Reply V)}
    (placed : account.Placed rows before after position step)
    (answered : host.answered step.outcome = some result) :
    account.Kept rows before after position step := by
  cases parked : host.parked step.before with
  | false => exact placed.kept parked
  | true => simp [Host.answered, (placed.halted parked).halts.stops] at answered

/-- A step within the memo has its place there. -/
theorem Placed.of_inside {after : List (Entry Call Reply V)}
    (placed : account.Placed rows before after position step) (inside : position < after.length) :
    account.Kept rows before after position step := by
  cases parked : host.parked step.before with
  | false => exact placed.kept parked
  | true =>
    have beyond := (placed.halted parked).beyond
    omega

variable {run : List (Segment Q A Call Reply Row σ)} (stages : account.Stages run stage)

include stages

/-- Memos only grow, so a later one extends an earlier one. -/
theorem Stages.later (before : early ≤ late) : stage early <+: stage late := by
  induction before with
  | refl => exact prefix_rfl
  | step _ ih => exact ih.trans (stages.grows _)

/-- Up to a position that both have reached, the memos of two stages are the same. -/
theorem Stages.take_eq (reached : index ≤ (stage one).length)
    (reachedAgain : index ≤ (stage two).length) :
    (stage two).take index = (stage one).take index := by
  rcases Nat.le_total one two with order | order
  · obtain ⟨more, extended⟩ := stages.later order
    rw [← extended, take_append_of_le_length reached]
  · obtain ⟨more, extended⟩ := stages.later order
    rw [← extended, take_append_of_le_length reachedAgain]

omit stages

variable (account)

/-- The views of a memo's entries rise from one to the next. -/
theorem rank_take_le (explains : account.Explains rows memo) (below : lower ≤ upper)
    (inside : upper ≤ memo.length) :
    account.rank (lastView account.initial (memo.take lower)) ≤
      account.rank (lastView account.initial (memo.take upper)) := by
  induction below with
  | refl => exact Nat.le_refl _
  | @step upper _ ih =>
    have here : upper < memo.length := inside
    have split : memo = memo.take upper ++ memo[upper] :: memo.drop (upper + 1) := by
      simp
    have next := account.rises rows _ _ _ (split ▸ explains)
    refine Nat.le_trans (ih (Nat.le_of_lt here)) (Nat.le_trans next (Nat.le_of_eq ?_))
    rw [take_succ_eq_append_getElem here, lastView_snoc]

variable (allowed : ∀ segment ∈ host.run guest [] [] segments, segment.Meets account.Allowed)

include allowed

/-- A step made in a parked session comes to nothing. -/
theorem active_or_halts (found : (host.run guest [] [] segments)[number]? = some segment)
    (made : segment.steps[index]? = some step) : host.parked step.before = false ∨
      account.Idle step.trace ∧ host.Halts step.trace step.outcome := by
  obtain ⟨stage, stages⟩ := account.run_keeps segments allowed
  cases parked : host.parked step.before with
  | false => exact .inl rfl
  | true =>
    have halted := (stages.placed found made).halted parked
    exact .inr ⟨halted.idle, halted.halts⟩

/-- A call is answered from the memo, or made after it. -/
theorem answered_or_made (found : (host.run guest [] [] segments)[number]? = some segment)
    (made : segment.steps[index]? = some step) (active : host.parked step.before = false) :
    (∃ view, account.Quiet (account.view step.before) step.call view step.trace) ∨
      ∃ memo, account.view step.before = lastView account.initial memo ∧
        account.Fresh (host.rowsAt segment index) memo step.call step.trace := by
  obtain ⟨stage, stages⟩ := account.run_keeps segments allowed
  have kept := (stages.placed found made).kept active
  rcases Nat.lt_or_ge index (stage number).length with inside | outside
  · obtain ⟨called, quiet, _⟩ := kept.replayed _ (getElem?_eq_getElem inside)
    exact .inl ⟨_, called ▸ quiet⟩
  · exact .inr ⟨_, kept.seen, kept.fresh outside⟩

/-- A call that comes after another one with a final reply, in whichever segments the two
were made, is made in a session of no lower rank. -/
theorem rank_le (found : (host.run guest [] [] segments)[one]? = some first)
    (other : (host.run guest [] [] segments)[two]? = some second) (below : lower < upper)
    {next : Step Q A Call Reply σ} (made : first.steps[lower]? = some step)
    (later : second.steps[upper]? = some next)
    (answered : host.answered step.outcome = some (reply, session))
    (active : host.parked next.before = false) :
    account.rank (account.view session) ≤ account.rank (account.view next.before) := by
  obtain ⟨stage, stages⟩ := account.run_keeps segments allowed
  obtain ⟨rows, explains⟩ := stages.explained found
  obtain ⟨rows', explains'⟩ := stages.explained other
  obtain ⟨entry, at_, _, _, viewed⟩ :=
    ((stages.placed found made).of_answered answered).answered reply session answered
  have placed := (stages.placed other later).kept active
  have reached := placed.reached
  -- Both positions lie within the longer of the two memos.
  have view_eq : ∀ memo : List (Entry Call Reply V), memo[lower]? = some entry →
      lastView account.initial (memo.take (lower + 1)) = account.view session := by
    intro memo here
    have inside := (List.getElem?_eq_some_iff.mp here).1
    rw [take_add_one, here]
    simpa using viewed
  rcases Nat.le_total one two with order | order
  · have here := lookup_of_grows (stages.later (show one + 1 ≤ two + 1 by omega)) at_
    rw [placed.seen, ← view_eq _ here]
    exact account.rank_take_le explains' below reached
  · obtain ⟨more, extended⟩ := stages.later (show two + 1 ≤ one + 1 by omega)
    have taken : (stage (one + 1)).take upper = (stage (two + 1)).take upper := by
      rw [← extended, take_append_of_le_length reached]
    rw [placed.seen, ← taken, ← view_eq _ at_]
    refine account.rank_take_le explains below ?_
    rw [← extended, length_append]
    omega

variable (found : (host.run guest [] [] segments)[early]? = some first)
  (later : (host.run guest [] [] segments)[late]? = some second)
  (made : first.steps[index]? = some step) (repeated : second.steps[index]? = some again)

include found later made repeated

/-- Calls at the same position are the same call, made in sessions that look the same. -/
theorem same_place (active : host.parked step.before = false)
    (activeAgain : host.parked again.before = false) :
    again.call = step.call ∧ account.view again.before = account.view step.before := by
  obtain ⟨stage, stages⟩ := account.run_keeps segments allowed
  have keptFirst := (stages.placed found made).kept active
  have keptAgain := (stages.placed later repeated).kept activeAgain
  -- The memos up to this position are the same, whichever segment came first.
  have past := stages.take_eq keptFirst.reached keptAgain.reached
  constructor
  · exact Option.some.inj (keptAgain.called.symm.trans (past ▸ keptFirst.called))
  · rw [keptFirst.seen, keptAgain.seen, past]

variable (precedes : early < late)

include precedes

/-- A call that had its final reply in one segment is repeated in every later one: the
same call at the same position, answered from the memo with the same reply and the same
view of the session. -/
theorem repeats (answered : host.answered step.outcome = some (reply, session)) :
    again.call = step.call ∧
      account.Quiet (account.view again.before) again.call (account.view session) again.trace ∧
      ∀ reply' session', again.outcome = some (reply', session') →
        reply' = reply ∧ account.view session' = account.view session := by
  obtain ⟨stage, stages⟩ := account.run_keeps segments allowed
  have keptFirst := (stages.placed found made).of_answered answered
  obtain ⟨entry, found, same, replied, viewed⟩ := keptFirst.answered reply session answered
  have carried := lookup_of_grows (stages.later (show early + 1 ≤ late from precedes)) found
  have inside := (List.getElem?_eq_some_iff.mp (lookup_of_grows (stages.grows late) carried)).1
  have keptAgain := (stages.placed later repeated).of_inside inside
  obtain ⟨called, quiet, answers⟩ := keptAgain.replayed entry carried
  refine ⟨called.trans same, called ▸ viewed ▸ quiet, fun reply' session' given => ?_⟩
  obtain ⟨repliedSame, _, _, viewedSame⟩ := answers reply' session' given
  exact ⟨repliedSame.trans replied, viewedSame.trans viewed⟩

/-- A call that had its final reply is repeated in a session that looks the same. -/
theorem repeats_place (answered : host.answered step.outcome = some result) :
    account.view again.before = account.view step.before := by
  obtain ⟨stage, stages⟩ := account.run_keeps segments allowed
  have keptFirst := (stages.placed found made).of_answered answered
  obtain ⟨entry, found, _⟩ := keptFirst.answered result.1 result.2 answered
  have carried := lookup_of_grows (stages.later (show early + 1 ≤ late + 1 by omega)) found
  have inside := (List.getElem?_eq_some_iff.mp carried).1
  have keptAgain := (stages.placed later repeated).of_inside inside
  rw [keptFirst.seen, keptAgain.seen, stages.take_eq keptFirst.reached keptAgain.reached]

/-- Calls at the same position in two segments: the later one is answered from the memo,
or both were made after the same memo. -/
theorem quiet_or_fresh (active : host.parked step.before = false)
    (activeAgain : host.parked again.before = false) :
    (∃ view, account.Quiet (account.view again.before) again.call view again.trace ∧
      ∀ reply session, again.outcome = some (reply, session) → account.view session = view) ∨
      ∃ memo, account.view again.before = lastView account.initial memo ∧
        account.Fresh (host.rowsAt first index) memo step.call step.trace ∧
        account.Fresh (host.rowsAt second index) memo step.call again.trace := by
  obtain ⟨same, _⟩ := account.same_place allowed found later made repeated active activeAgain
  obtain ⟨stage, stages⟩ := account.run_keeps segments allowed
  have keptFirst := (stages.placed found made).kept active
  have keptAgain := (stages.placed later repeated).kept activeAgain
  rcases Nat.lt_or_ge index (stage late).length with inside | outside
  · obtain ⟨called, quiet, answers⟩ := keptAgain.replayed _ (getElem?_eq_getElem inside)
    exact .inl ⟨_, called ▸ quiet, fun reply session given => (answers reply session given).2.2.2⟩
  · right
    -- Both memos reach exactly to this position, so they are the same.
    obtain ⟨more, extended⟩ := stages.later (show early + 1 ≤ late from precedes)
    obtain ⟨grown, further⟩ := stages.grows late
    have short : (stage early).length ≤ index :=
      Nat.le_trans (stages.later (show early ≤ late by omega)).length_le outside
    have reached := keptFirst.reached
    have exact_ : more = [] := by
      rw [← extended, length_append] at outside
      exact length_eq_zero_iff.mp (by omega)
    rw [exact_, append_nil] at extended
    have whole : (stage late).length = index := by rw [← extended] at outside ⊢; omega
    have fresh := keptFirst.fresh short
    have freshAgain := keptAgain.fresh outside
    have past : (stage late).take index = stage late := by rw [← whole, take_length]
    have pastAgain : (stage (late + 1)).take index = stage late := by
      rw [← further, ← whole, take_left]
    rw [extended, past] at fresh
    rw [pastAgain, same] at freshAgain
    exact ⟨stage late, by rw [keptAgain.seen, pastAgain], fresh, freshAgain⟩

end Account

namespace Host

variable {host : Host Q A Call Reply Row σ Seed} {guest : Guest Call Reply}

variable {session : σ} {replies : List Reply} {index : Nat} {measure : List Row → Nat}

/-- A step of a segment is an execution of its call. -/
theorem segment_runs (scripts : List (Script Q A)) {step : Step Q A Call Reply σ}
    (made : (host.segment guest session replies scripts)[index]? = some step) :
    (host.execute step.call step.before).Runs step.trace step.outcome := by
  induction scripts generalizing session replies index with
  | nil => simp [Host.segment] at made
  | cons script scripts ih =>
    cases next : guest replies with
    | none => simp [Host.segment, next] at made
    | some call =>
      rw [Account.segment_cons next] at made
      cases index with
      | zero =>
        cases made
        exact Program.run_runs _ script
      | succ index =>
        split at made
        · simp at made
        · exact ih made

/-- A step that is not the first is made in the session in which its predecessor returned. -/
theorem segment_next (scripts : List (Script Q A)) {next : Step Q A Call Reply σ}
    (made : (host.segment guest session replies scripts)[index + 1]? = some next) :
    ∃ step reply, (host.segment guest session replies scripts)[index]? = some step ∧
      host.returned step.outcome = some (reply, next.before) := by
  induction scripts generalizing session replies index with
  | nil => simp [Host.segment] at made
  | cons script scripts ih =>
    cases called : guest replies with
    | none => simp [Host.segment, called] at made
    | some call =>
      rw [Account.segment_cons called] at made ⊢
      rw [getElem?_cons_succ] at made
      cases returned : host.returned ((host.execute call session).run script).2 with
      | none =>
        rw [returned] at made
        simp at made
      | some pair =>
        obtain ⟨reply, after⟩ := pair
        rw [returned] at made
        cases index with
        | zero =>
          refine ⟨_, reply, rfl, ?_⟩
          have first : (host.segment guest after (replies ++ [reply]) scripts).head? =
              some next := by
            rw [← made, head?_eq_getElem?]
          obtain ⟨others, split⟩ := head?_eq_some_iff.mp first
          rw [Account.segment_head split]
          exact returned
        | succ index => simpa [returned] using ih made

/-- The steps of a run's segment are those of its guest over the rows it loaded. -/
theorem run_segment (segments : List (Seed × List (Script Q A))) {rows : List Row}
    {known : List Reply} {number : Nat} {segment : Segment Q A Call Reply Row σ}
    (found : (host.run guest rows known segments)[number]? = some segment) :
    ∃ seed scripts, segment.steps = host.segment guest (host.load seed segment.loaded) [] scripts := by
  induction segments generalizing rows known number with
  | nil => simp [Host.run] at found
  | cons opening segments ih =>
    cases number with
    | zero =>
      cases found
      exact ⟨opening.1, opening.2, rfl⟩
    | succ number => exact ih found

/-- A measure that no write lowers is not lowered by a segment. -/
theorem measure_le_rowsAfter
    (grows : ∀ rows observed, measure rows ≤ measure (host.write rows observed)) (rows : List Row)
    (steps : List (Step Q A Call Reply σ)) :
    measure rows ≤ measure (host.rowsAfter rows steps) := by
  have written : ∀ (trace : List (Observation Q A)) (rows : List Row),
      measure rows ≤ measure (host.writeAll rows trace) := by
    intro trace
    induction trace with
    | nil => exact fun rows => Nat.le_refl _
    | cons observed trace ih => exact fun rows => Nat.le_trans (grows rows observed) (ih _)
  induction steps generalizing rows with
  | nil => exact Nat.le_refl _
  | cons step steps ih => exact Nat.le_trans (written step.trace rows) (ih _)

/-- The rows written up to a call of one segment are not lost to any later segment. -/
theorem measure_le_loaded
    (grows : ∀ rows observed, measure rows ≤ measure (host.write rows observed))
    (segments : List (Seed × List (Script Q A))) :
    ∀ (rows : List Row) (known : List Reply) (early late : Nat)
      (first second : Segment Q A Call Reply Row σ), early < late →
      (host.run guest rows known segments)[early]? = some first →
      (host.run guest rows known segments)[late]? = some second →
      ∀ index, measure (host.rowsAt first index) ≤ measure second.loaded := by
  have loaded : ∀ (segments : List (Seed × List (Script Q A))) (rows : List Row) (known : List Reply)
      (late : Nat) (second : Segment Q A Call Reply Row σ),
      (host.run guest rows known segments)[late]? = some second →
      measure rows ≤ measure second.loaded := by
    intro segments
    induction segments with
    | nil => simp [Host.run]
    | cons opening segments ih =>
      intro rows known late second found
      cases late with
      | zero =>
        cases found
        exact Nat.le_refl _
      | succ late =>
        exact Nat.le_trans (measure_le_rowsAfter grows _ _) (ih _ _ late second found)
  induction segments with
  | nil => simp [Host.run]
  | cons opening segments ih =>
    obtain ⟨seed, scripts⟩ := opening
    intro rows known early late first second before one two index
    obtain ⟨late, rfl⟩ : ∃ number, late = number + 1 := ⟨late - 1, by omega⟩
    cases early with
    | succ early => exact ih _ _ early late first second (by omega) one two index
    | zero =>
      cases one
      refine Nat.le_trans ?_ (loaded segments _ _ late second two)
      have split :=
        take_append_drop index (host.segment guest (host.load seed rows) [] scripts)
      have rest : host.rowsAfter rows (host.segment guest (host.load seed rows) [] scripts) =
          host.rowsAfter (host.rowsAfter rows
            ((host.segment guest (host.load seed rows) [] scripts).take index))
            ((host.segment guest (host.load seed rows) [] scripts).drop index) := by
        simp only [Host.rowsAfter, ← foldl_append, split]
      rw [rest]
      exact measure_le_rowsAfter grows _ _

end Host

end Durable
