import Cleat.Durable.Machine
import Cleat.Durable.Unique
import Cleat.Encoding.Json

/-!
# Starts that carry an idempotency key

A start with an idempotency key looks for a live row of the key. If there is one, the caller gets
the run it names, provided that the definition is the same and the digest of the input is the same.
Otherwise the start deletes an expired row, inserts its own, doing nothing on a conflict, and makes
the run in the same transaction. On a conflict it rolls back and reads the winner's row in a second
transaction.

The calls with one key of one tenant interleave statement by statement under read committed.
`now()` is the time at which a transaction has begun. At first there may be a row left over from an
earlier use of the key, whose lifetime is over. JSON's grammar, the encoder and SHA-256 are
parameters.
-/
namespace Cleat.Store

open Durable Encoding List.Subset Slot

attribute [local simp] Json.read doubleReading

section Inputs

/-- `json.Unmarshal` into an empty interface. Numbers become doubles, and a tree that is nested too
deep is refused. -/
def unmarshal (parse : String → Option Json) (text : String) : Option Json :=
  (parse text).bind fun tree =>
    if tree.depth ≤ 10000 then tree.read doubleReading else none

/-- What the digest of an input rests on. A value that was decoded is decoded again from its
encoding. -/
structure InputCodec where
  parse : String → Option Json
  marshal : Json → String
  sha256Hex : String → String
  roundTrip : ∀ text value, unmarshal parse text = some value →
    unmarshal parse (marshal value) = some value
  digested : ∀ text, sha256Hex text ≠ ""

variable (codec : InputCodec)

/-- The text that is digested: the encoding of the decoded value, or the input as it is. -/
def canonical (input : String) : String :=
  match unmarshal codec.parse input with
  | some value => codec.marshal value
  | none => input

def idempotencyInputDigest (input : String) : String := codec.sha256Hex (canonical codec input)

/-- A stored digest agrees if it is unknown or the same. -/
def checkIdempotencyInput (stored : Option String) (want : String) : Bool :=
  match stored with
  | none => true
  | some digest => digest = "" || digest = want

/-- What an input is decoded to, or its text. -/
def decoded (input : String) : Except String Json :=
  match unmarshal codec.parse input with
  | some value => .ok value
  | none => .error input

/-- Two inputs are the same JSON value. Inputs that are not JSON are the same if their texts are. -/
def SameInput (one other : String) : Prop :=
  match codec.parse one, codec.parse other with
  | some tree, some tree' => tree.read exactReading = tree'.read exactReading
  | none, none => one = other
  | _, _ => False

/-- Decoding tells two inputs apart exactly if they are different values. -/
def Told (one other : String) : Prop :=
  decoded codec one = decoded codec other ↔ SameInput codec one other

variable {codec}

theorem canonical_eq_iff {one other : String} :
    canonical codec one = canonical codec other ↔ decoded codec one = decoded codec other := by
  unfold canonical decoded
  cases first : unmarshal codec.parse one with
  | none =>
    cases second : unmarshal codec.parse other with
    | none => simp
    | some value =>
      simp only [reduceCtorEq, iff_false]
      rintro rfl
      rw [codec.roundTrip other value second] at first
      cases first
  | some value =>
    have again := codec.roundTrip one value first
    cases second : unmarshal codec.parse other with
    | none =>
      simp only [reduceCtorEq, iff_false]
      rintro rfl
      rw [again] at second
      cases second
    | some value' =>
      have again' := codec.roundTrip other value' second
      simp only [Except.ok.injEq]
      constructor
      · intro same
        rw [same, again', Option.some.injEq] at again
        exact again.symm
      · rintro rfl
        rfl

end Inputs

section Steps

structure StartCall where
  runID : String
  defName : String
  input : String
deriving DecidableEq

/-- A row of `idempotency_keys`, with the input of the start as history. -/
structure StartKeyRow where
  workflowID : String
  expiresAt : Nat
  defName : Option String
  inputDigest : Option String
  input : String
deriving DecidableEq

inductive StartAnswer where
  | started (workflowID : String)
  | existing (workflowID : String)
  | defMismatch (held asked : String)
  | inputMismatch (stored want : String)
  | noRows
  | failed
deriving DecidableEq

/-- How far a start has come. -/
inductive StartPhase where
  | begun | missed | cleared | claimed | made | conflicted | rereading
  | returned (answer : StartAnswer)
deriving DecidableEq

/-- A call with what `now()` gives in its transaction. -/
structure StartTx where
  call : StartCall
  now : Nat
  phase : StartPhase := .begun
deriving DecidableEq

/-- The row of the key, the calls, and the rows of the starts that were committed. -/
structure StartTables where
  clock : Nat := 0
  calls : Nat → Option StartTx := fun _ => none
  key : Slot Nat StartKeyRow := {}
  created : List StartKeyRow := []

/-- The statements of a start. Making the run may fail, and the answer to a commit may be lost. An
error, a cancellation and a crash roll the transaction back. -/
inductive StartStatement where
  | select | clear | insert
  | make (ok : Bool)
  | commit (reported : Bool)
  | beginReread | reread | abort

inductive StartAction where
  | tick (seconds : Nat)
  | begin' (tx : Nat) (call : StartCall)
  | run (tx : Nat) (statement : StartStatement)
  | sweep (now : Nat)

variable (codec : InputCodec) (ttl : Nat)

/-- A live row of the key is for this start, or it is refused. -/
def StartKeyRow.answer (row : StartKeyRow) (call : StartCall) : StartAnswer :=
  if row.defName.any (· ≠ call.defName) then
    .defMismatch (row.defName.getD "") call.defName
  else if checkIdempotencyInput row.inputDigest (idempotencyInputDigest codec call.input) then
    .existing row.workflowID
  else .inputMismatch (row.inputDigest.getD "") (idempotencyInputDigest codec call.input)

/-- The key row that a start writes. -/
def StartTx.keyRow (open' : StartTx) : StartKeyRow where
  workflowID := open'.call.runID
  expiresAt := open'.now + ttl
  defName := some open'.call.defName
  inputDigest := some (idempotencyInputDigest codec open'.call.input)
  input := open'.call.input

namespace StartTables

variable (tables : StartTables)

def setPhase (tx : Nat) (open' : StartTx) (phase : StartPhase) : StartTables :=
  { tables with calls := Function.update tables.calls tx (some { open' with phase }) }

/-- The transaction ends and the call returns. -/
def finish (tx : Nat) (open' : StartTx) (committed : Bool) (phase : StartPhase) : StartTables :=
  { tables.setPhase tx open' phase with key := tables.key.finish tx committed }

/-- The row of the key that is live for a transaction. -/
def live (tx now : Nat) : Option StartKeyRow :=
  (tables.key.seen tx).filter fun row => now < row.expiresAt

/-- One statement of a call, by the point it has come to. -/
def advance (tx : Nat) (open' : StartTx) : StartStatement → StartTables
  | .select =>
    match open'.phase, tables.live tx open'.now with
    | .begun, some row => tables.setPhase tx open' (.returned (row.answer codec open'.call))
    | .begun, none => tables.setPhase tx open' .missed
    | _, _ => tables
  | .clear =>
    match open'.phase with
    | .missed =>
      if (tables.key.seen tx).any (fun row => row.expiresAt ≤ open'.now) && tables.key.busy tx
      then tables
      else
        { tables.setPhase tx open' .cleared with
          key := tables.key.delete tx fun row => row.expiresAt ≤ open'.now }
    | _ => tables
  | .insert =>
    match open'.phase with
    | .cleared =>
      let result := tables.key.insert tx (open'.keyRow codec ttl)
      match result.1 with
      | .waits => tables
      | .inserted => { tables.setPhase tx open' .claimed with key := result.2 }
      | .conflict => tables.finish tx open' false .conflicted
    | _ => tables
  | .make ok =>
    match open'.phase with
    | .claimed =>
      if ok then tables.setPhase tx open' .made
      else tables.finish tx open' false (.returned .failed)
    | _ => tables
  | .commit reported =>
    match open'.phase with
    | .made =>
      { tables.finish tx open' true
          (.returned (if reported then .started open'.call.runID else .failed)) with
        created := tables.created ++ [open'.keyRow codec ttl] }
    | _ => tables
  | .beginReread =>
    match open'.phase with
    | .conflicted => tables.setPhase tx { open' with now := tables.clock } .rereading
    | _ => tables
  | .reread =>
    match open'.phase, tables.live tx open'.now with
    | .rereading, some row => tables.setPhase tx open' (.returned (row.answer codec open'.call))
    | .rereading, none => tables.setPhase tx open' (.returned .noRows)
    | _, _ => tables
  | .abort =>
    match open'.phase with
    | .returned _ => tables
    | _ => tables.finish tx open' false (.returned .failed)

def step : StartAction → StartTables
  | .tick seconds => { tables with clock := tables.clock + seconds }
  | .begin' tx call =>
    match tables.calls tx with
    | none => tables.setPhase tx { call, now := tables.clock } .begun
    | some _ => tables
  | .run tx statement =>
    match tables.calls tx with
    | some open' => tables.advance codec ttl tx open' statement
    | none => tables
  | .sweep now =>
    if now ≤ tables.clock ∧ tables.key.writer = none ∧
        tables.key.row.any (fun row => row.expiresAt ≤ now) then { tables with key := {} }
    else tables

end StartTables

end Steps

section Invariant

variable (codec : InputCodec) (ttl start : Nat)

/-- The start has inserted the key row and not ended. -/
def StartTx.Holds (open' : StartTx) : Prop := open'.phase = .claimed ∨ open'.phase = .made

attribute [local simp] StartTx.Holds

/-- The answer to a start names the run of a row: the call has made it, or the row was compared. -/
def StartKeyRow.Settles (row : StartKeyRow) (call : StartCall) (answer : StartAnswer) : Prop :=
  answer = .started row.workflowID ∧ row.defName = some call.defName ∧ row.input = call.input ∨
    answer = row.answer codec call

/-- What holds of one call in the tables. -/
structure StartTables.Fits (tables : StartTables) (tx : Nat) (open' : StartTx) : Prop where
  begun : start ≤ open'.now
  past : open'.now ≤ tables.clock
  holds : open'.Holds → tables.key.writer = some (tx, some (open'.keyRow codec ttl))
  cleared : open'.phase = .cleared → tables.created = [] → ∀ row, tables.key.row = some row →
    tables.key.writer = some (tx, none)
  lost : open'.phase = .conflicted ∨ open'.phase = .rereading → tables.created ≠ []
  answered : ∀ answer, open'.phase = .returned answer → answer ≠ .failed →
    ∃ row ∈ tables.created, row.Settles codec open'.call answer

/-- No start was committed, and a row of the key is left over from before; or one start was, and
its row is there and nobody changes it. -/
structure StartTables.Sound (tables : StartTables) : Prop where
  begun : start ≤ tables.clock
  live : tables.created = [] ∧ (∀ row, tables.key.row = some row → row.expiresAt ≤ start) ∨
    ∃ row, tables.created = [row] ∧ tables.key.row = some row ∧ tables.key.writer = none
  rows : ∀ row ∈ tables.created, row.defName.isSome ∧
    row.inputDigest = some (idempotencyInputDigest codec row.input)
  writer : ∀ tx left, tables.key.writer = some (tx, left) → ∃ open', tables.calls tx = some open' ∧
    (open'.phase = .cleared ∧ left = none ∨ open'.Holds ∧ left = some (open'.keyRow codec ttl))
  fits : ∀ tx open', tables.calls tx = some open' → tables.Fits codec ttl start tx open'

/-- Every start that was committed is within the lifetime of its key. -/
def StartTables.Alive (tables : StartTables) : Prop :=
  ∀ row ∈ tables.created, tables.clock < row.expiresAt

variable {codec ttl start} {tables after : StartTables} {tx : Nat} {open' : StartTx}

/-- A call that takes no part in a change. The key is as it was, or the call has not changed it and
there is no row that was not there before, unless a start was committed. -/
theorem StartTables.Fits.frame (fits : tables.Fits codec ttl start tx open')
    (clock : tables.clock ≤ after.clock) (created : tables.created ⊆ after.created)
    (key : after.key = tables.key ∨ (∀ left, tables.key.writer ≠ some (tx, left)) ∧
      (after.created = [] → ∀ row, after.key.row = some row → tables.key.row = some row)) :
    after.Fits codec ttl start tx open' := by
  have none : after.created = [] → tables.created = [] := by
    intro empty
    rw [empty] at created
    exact List.subset_nil.mp created
  constructor
  case begun => exact fits.begun
  case past => exact Nat.le_trans fits.past clock
  case holds =>
    intro holds
    rcases key with same | ⟨idle, _⟩
    · rw [same]
      exact fits.holds holds
    · exact absurd (fits.holds holds) (idle _)
  case cleared =>
    intro phase empty row present
    rcases key with same | ⟨idle, rows⟩
    · rw [same] at present ⊢
      exact fits.cleared phase (none empty) row present
    · exact absurd (fits.cleared phase (none empty) row (rows empty row present)) (idle _)
  case lost => exact fun phase empty => fits.lost phase (none empty)
  case answered =>
    intro answer phase silent
    obtain ⟨row, member, settles⟩ := fits.answered answer phase silent
    exact ⟨row, created member, settles⟩

theorem StartTables.setPhase_calls (phase : StartPhase) (other : Nat) :
    (tables.setPhase tx open' phase).calls other =
      if other = tx then some { open' with phase } else tables.calls other :=
  Function.update_apply ..

variable {phase : StartPhase} {answer : StartAnswer} {row : StartKeyRow}

/-- The calls after a change that moves one of them. -/
theorem StartTables.fits_of_update (calls : after.calls = (tables.setPhase tx open' phase).calls)
    (own : after.Fits codec ttl start tx { open' with phase })
    (others : ∀ other open'', other ≠ tx → tables.calls other = some open'' →
      after.Fits codec ttl start other open'') (other : Nat) (open'' : StartTx)
    (found : after.calls other = some open'') : after.Fits codec ttl start other open'' := by
  rw [calls, StartTables.setPhase_calls] at found
  by_cases same : other = tx
  · rw [if_pos same, Option.some.injEq] at found
    subst found same
    exact own
  · rw [if_neg same] at found
    exact others other open'' same found

/-- A phase in which a call holds no key, has lost none and has answered nothing. -/
def StartPhase.Early (phase : StartPhase) : Prop := phase = .begun ∨ phase = .missed

theorem StartTables.Fits.early (begun : start ≤ open'.now) (past : open'.now ≤ tables.clock)
    (early : open'.phase.Early) : tables.Fits codec ttl start tx open' := by
  constructor
  case begun => exact begun
  case past => exact past
  all_goals rcases early with phase | phase <;> simp [phase]

/-- A call that has returned. -/
theorem StartTables.Fits.returned (begun : start ≤ open'.now) (past : open'.now ≤ tables.clock)
    (settled : answer ≠ .failed → ∃ row ∈ tables.created, row.Settles codec open'.call answer) :
    tables.Fits codec ttl start tx { open' with phase := .returned answer } := by
  constructor
  case begun => exact begun
  case past => exact past
  case answered =>
    intro answer' same silent
    injection same with same
    subst same
    exact settled silent
  all_goals simp

variable (sound : tables.Sound codec ttl start)

include sound

/-- A call that does not hold the key goes on without touching it. -/
theorem StartTables.Sound.setPhase (idle : ∀ left, tables.key.writer ≠ some (tx, left))
    (own : tables.Fits codec ttl start tx { open' with phase }) :
    (tables.setPhase tx open' phase).Sound codec ttl start := by
  constructor
  case begun => exact sound.begun
  case live => exact sound.live
  case rows => exact sound.rows
  case writer =>
    intro holder left held
    obtain ⟨open'', found, rest⟩ := sound.writer holder left held
    refine ⟨open'', ?_, rest⟩
    rw [StartTables.setPhase_calls, if_neg, found]
    rintro rfl
    exact idle left held
  case fits =>
    apply StartTables.fits_of_update rfl
    · exact own.frame (Nat.le_refl _) (refl _) (.inl rfl)
    · intro other open'' _ found
      exact (sound.fits other open'' found).frame (Nat.le_refl _) (refl _) (.inl rfl)

section

variable (found : tables.calls tx = some open')

include found

namespace StartTables

/-- A call holds the key only between its deletion of the old row and its end. -/
theorem Sound.idle (cleared : open'.phase ≠ .cleared) (holds : ¬ open'.Holds)
    (left : Option StartKeyRow) : tables.key.writer ≠ some (tx, left) := by
  intro held
  obtain ⟨open'', found', phase⟩ := sound.writer tx left held
  rw [found, Option.some.injEq] at found'
  subst found'
  rcases phase with ⟨here, _⟩ | ⟨here, _⟩
  · exact cleared here
  · exact holds here

/-- A live row that a call sees is the row of the start that was committed. -/
theorem Sound.committed_of_live (idle : ∀ left, tables.key.writer ≠ some (tx, left))
    (live : tables.live tx open'.now = some row) : tables.created = [row] := by
  rw [StartTables.live, seen_of_ne idle, Option.filter_eq_some_iff] at live
  obtain ⟨present, unexpired⟩ := live
  rcases sound.live with ⟨_, stale⟩ | ⟨row', created, present', _⟩
  · have old := stale row present
    have begun := (sound.fits tx open' found).begun
    simp only [decide_eq_true_eq] at unexpired
    omega
  · rw [present, Option.some.injEq] at present'
    rw [created, present']

theorem Sound.finds (phase : open'.phase = .begun ∨ open'.phase = .rereading)
    (live : tables.live tx open'.now = some row) :
    (tables.setPhase tx open' (.returned (row.answer codec open'.call))).Sound codec ttl start := by
  have idle := sound.idle found (by rcases phase with phase | phase <;> simp [phase])
    (by rcases phase with phase | phase <;> simp [phase])
  have created := sound.committed_of_live found idle live
  have fits := sound.fits tx open' found
  refine sound.setPhase idle (.returned fits.begun fits.past fun _ => ?_)
  exact ⟨row, by simp [created], .inr rfl⟩

theorem Sound.clears (alive : tables.Alive) (phase : open'.phase = .missed)
    (free : (tables.key.seen tx).any (fun row => row.expiresAt ≤ open'.now) = true →
      tables.key.busy tx = false) :
    ({ tables.setPhase tx open' .cleared with
      key := tables.key.delete tx fun row => row.expiresAt ≤ open'.now } : StartTables).Sound
        codec ttl start := by
  have idle := sound.idle found (by simp [phase]) (by simp [phase])
  have fits := sound.fits tx open' found
  rw [seen_of_ne idle] at free
  by_cases expired : tables.key.row.any (fun row => row.expiresAt ≤ open'.now) = true
  · have nobody := writer_eq_none (free expired) idle
    have deleted : tables.key.delete tx (fun row => row.expiresAt ≤ open'.now) =
        { tables.key with writer := some (tx, none) } := by
      rw [delete, seen_of_ne idle, if_pos expired]
    rw [deleted]
    -- The row of a start that was committed is not expired.
    have stale : tables.created = [] ∧
        ∀ row, tables.key.row = some row → row.expiresAt ≤ start := by
      refine sound.live.resolve_right ?_
      rintro ⟨row, created, present, _⟩
      have unexpired := alive row (by simp [created])
      have past := fits.past
      have old : row.expiresAt ≤ open'.now := by simpa [present] using expired
      omega
    constructor
    case begun => exact sound.begun
    case live => exact .inl stale
    case rows => exact sound.rows
    case writer =>
      intro holder left held
      obtain ⟨rfl, rfl⟩ : tx = holder ∧ none = left := by simpa using held
      refine ⟨_, (setPhase_calls _ _).trans (if_pos rfl), .inl ⟨rfl, rfl⟩⟩
    case fits =>
      refine fits_of_update rfl ?_ fun other open'' apart found' => ?_
      · exact ⟨fits.begun, fits.past, by simp, fun _ _ _ _ => rfl, by simp, by simp⟩
      · refine (sound.fits other open'' found').frame (Nat.le_refl _) (refl _)
          (.inr ⟨?_, fun _ row present => present⟩)
        rw [nobody]
        nofun
  · have kept : tables.key.delete tx (fun row => row.expiresAt ≤ open'.now) = tables.key := by
      rw [delete, seen_of_ne idle, if_neg expired]
    rw [kept]
    refine sound.setPhase idle
      ⟨fits.begun, fits.past, by simp, ?_, by simp, by simp⟩
    intro _ empty row present
    rcases sound.live with ⟨_, stale⟩ | ⟨row', created, _⟩
    · have old := stale row present
      have begun := fits.begun
      simp only [present, Option.any_some, decide_eq_true_eq] at expired
      omega
    · rw [empty] at created
      cases created

theorem Sound.claims (free : tables.key.busy tx = false)
    (seen : tables.key.seen tx = none) :
    ({ tables.setPhase tx open' .claimed with
      key := { tables.key with writer := some (tx, some (open'.keyRow codec ttl)) } } :
        StartTables).Sound codec ttl start := by
  have fits := sound.fits tx open' found
  have others : ∀ other left, other ≠ tx → tables.key.writer ≠ some (other, left) := by
    intro other left apart held
    simp [busy, held, apart] at free
  have stale : tables.created = [] ∧
      ∀ row, tables.key.row = some row → row.expiresAt ≤ start := by
    refine sound.live.resolve_right ?_
    rintro ⟨row, _, present, nobody⟩
    rw [seen_of_ne (by simp [nobody]), present] at seen
    cases seen
  constructor
  case begun => exact sound.begun
  case live => exact .inl stale
  case rows => exact sound.rows
  case writer =>
    intro holder left held
    obtain ⟨rfl, rfl⟩ : tx = holder ∧ some (open'.keyRow codec ttl) = left := by simpa using held
    exact ⟨_, (setPhase_calls _ _).trans (if_pos rfl), .inr ⟨.inl rfl, rfl⟩⟩
  case fits =>
    refine fits_of_update rfl ?_ fun other open'' apart found' => ?_
    · exact ⟨fits.begun, fits.past, fun _ => rfl, by simp, by simp, by simp⟩
    · exact (sound.fits other open'' found').frame (Nat.le_refl _) (refl _)
        (.inr ⟨fun left => others other left apart, fun _ row present => present⟩)

theorem Sound.conflicts (phase : open'.phase = .cleared)
    (seen : tables.key.seen tx = some row) :
    (tables.finish tx open' false .conflicted).Sound codec ttl start := by
  have fits := sound.fits tx open' found
  -- Its own deletion would have made room.
  have idle : ∀ left, tables.key.writer ≠ some (tx, left) := by
    intro left held
    obtain ⟨open'', found', here⟩ := sound.writer tx left held
    rw [found, Option.some.injEq] at found'
    subst found'
    simp only [phase, StartTx.Holds, true_and, reduceCtorEq, or_self, false_and, or_false] at here
    simp [Slot.seen, held, here] at seen
  rw [Slot.seen_of_ne idle] at seen
  have lost : tables.created ≠ [] := by
    intro empty
    exact idle none (fits.cleared phase empty row seen)
  have kept : tables.finish tx open' false .conflicted = tables.setPhase tx open' .conflicted := by
    simp only [finish, Slot.finish_of_ne idle]
    rfl
  rw [kept]
  exact sound.setPhase idle ⟨fits.begun, fits.past, by simp, by simp,
    fun _ => lost, by simp⟩

theorem Sound.makes (phase : open'.phase = .claimed) :
    (tables.setPhase tx open' .made).Sound codec ttl start := by
  have fits := sound.fits tx open' found
  have held := fits.holds (.inl phase)
  constructor
  case begun => exact sound.begun
  case live => exact sound.live
  case rows => exact sound.rows
  case writer =>
    intro holder left held'
    change tables.key.writer = _ at held'
    rw [held, Option.some.injEq, Prod.mk.injEq] at held'
    obtain ⟨rfl, rfl⟩ := held'
    exact ⟨_, (setPhase_calls _ _).trans (if_pos rfl), .inr ⟨.inr rfl, rfl⟩⟩
  case fits =>
    refine fits_of_update rfl ?_ fun other open'' apart found' => ?_
    · exact ⟨fits.begun, fits.past, fun _ => held, by simp, by simp, by simp⟩
    · exact (sound.fits other open'' found').frame (Nat.le_refl _) (refl _) (.inl rfl)

theorem Sound.commits (phase : open'.phase = .made)
    (own : answer = .started open'.call.runID ∨ answer = .failed) :
    ({ tables.finish tx open' true (.returned answer) with
      created := tables.created ++ [open'.keyRow codec ttl] } : StartTables).Sound
        codec ttl start := by
  have fits := sound.fits tx open' found
  have held := fits.holds (.inr phase)
  have empty : tables.created = [] := by
    refine (sound.live.resolve_right ?_).1
    rintro ⟨_, _, _, nobody⟩
    rw [nobody] at held
    cases held
  have key : tables.key.finish tx true = { row := some (open'.keyRow codec ttl) } :=
    finish_of_writer held true
  simp only [finish, key, empty, List.nil_append]
  constructor
  case begun => exact sound.begun
  case live => exact .inr ⟨_, rfl, rfl, rfl⟩
  case rows =>
    intro row member
    rw [List.mem_singleton] at member
    subst member
    exact ⟨rfl, rfl⟩
  case writer => nofun
  case fits =>
    refine fits_of_update rfl ?_ fun other open'' apart found' => ?_
    · refine .returned fits.begun fits.past fun silent => ?_
      exact ⟨_, List.mem_singleton_self _, .inl ⟨own.resolve_right silent, rfl, rfl⟩⟩
    · refine (sound.fits other open'' found').frame (Nat.le_refl _) (by simp [empty])
        (.inr ⟨fun left held' => ?_, by simp⟩)
      rw [held, Option.some.injEq, Prod.mk.injEq] at held'
      exact apart held'.1.symm

theorem Sound.rollsBack :
    (tables.finish tx open' false (.returned .failed)).Sound codec ttl start := by
  have fits := sound.fits tx open' found
  constructor
  case begun => exact sound.begun
  case rows => exact sound.rows
  case live =>
    change tables.created = [] ∧ _ ∨ ∃ row, tables.created = [row] ∧
      (tables.key.finish tx false).row = some row ∧ (tables.key.finish tx false).writer = none
    rcases sound.live with ⟨empty, stale⟩ | ⟨row, created, present, nobody⟩
    · refine .inl ⟨empty, fun row present => stale row ?_⟩
      exact row_finish_false.symm.trans present
    · rw [finish_of_ne (by rw [nobody]; nofun)]
      exact .inr ⟨row, created, present, nobody⟩
  case writer =>
    intro holder left held
    obtain ⟨held, apart⟩ := writer_finish.mp held
    obtain ⟨open'', found', rest⟩ := sound.writer holder left held
    exact ⟨open'', (setPhase_calls _ _).trans ((if_neg apart).trans found'), rest⟩
  case fits =>
    refine fits_of_update rfl ?_ fun other open'' apart found' => ?_
    · exact .returned fits.begun fits.past fun silent => absurd rfl silent
    · refine (sound.fits other open'' found').frame (Nat.le_refl _) (refl _) ?_
      by_cases held : ∃ left, tables.key.writer = some (tx, left)
      · obtain ⟨left, held⟩ := held
        refine .inr ⟨fun left' held' => ?_, fun _ row present => ?_⟩
        · rw [held, Option.some.injEq, Prod.mk.injEq] at held'
          exact apart held'.1.symm
        · exact row_finish_false.symm.trans present
      · exact .inl (finish_of_ne (not_exists.mp held) false)

end StartTables

end

theorem StartTables.Sound.sweeps (alive : tables.Alive) (free : tables.key.writer = none)
    (found : tables.key.row = some row) (expired : row.expiresAt ≤ tables.clock) :
    ({ tables with key := {} } : StartTables).Sound codec ttl start := by
  have empty : tables.created = [] := by
    refine (sound.live.resolve_right ?_).1
    rintro ⟨row', created, present, _⟩
    rw [found, Option.some.injEq] at present
    subst present
    have unexpired := alive row (by simp [created])
    omega
  constructor
  case begun => exact sound.begun
  case live => exact .inl ⟨empty, nofun⟩
  case rows => exact sound.rows
  case writer => nofun
  case fits =>
    intro tx open' found'
    refine (sound.fits tx open' found').frame (Nat.le_refl _) (refl _)
      (.inr ⟨?_, nofun⟩)
    rw [free]
    nofun

/-- A statement keeps what holds of the tables, within the lifetime of the key. -/
theorem StartTables.Sound.advance (alive : tables.Alive) (found : tables.calls tx = some open')
    (statement : StartStatement) :
    (tables.advance codec ttl tx open' statement).Sound codec ttl start := by
  have fits := sound.fits tx open' found
  fun_cases StartTables.advance codec ttl tables tx open' statement with
  | case1 row live phase => exact sound.finds found (.inl phase) live
  | case2 live phase =>
    exact sound.setPhase (sound.idle found (by simp [phase]) (by simp [phase]))
      (.early fits.begun fits.past (.inr rfl))
  | case5 phase free => exact sound.clears found alive phase fun expired => by simpa [expired] using free
  | case8 phase _ inserted =>
    obtain ⟨free, seen, same⟩ := of_inserted inserted
    rw [same]
    exact sound.claims found free seen
  | case9 phase _ conflict =>
    obtain ⟨row, seen⟩ := of_conflict conflict
    exact sound.conflicts found phase seen
  | case11 phase => exact sound.makes found phase
  | case14 reported phase => exact sound.commits found phase (by cases reported <;> simp)
  | case16 phase =>
    refine sound.setPhase (sound.idle found (by simp [phase]) (by simp [phase]))
      ⟨sound.begun, Nat.le_refl _, by simp, by simp, ?_, by simp⟩
    exact fun _ => fits.lost (.inl phase)
  | case18 row live phase => exact sound.finds found (.inr phase) live
  | case19 live phase =>
    -- the row that won the conflict is still live
    have idle := sound.idle found (by simp [phase]) (by simp [phase])
    obtain ⟨row, created, present, _⟩ := sound.live.resolve_left fun empty =>
      fits.lost (.inr phase) empty.1
    have unexpired := alive row (by simp [created])
    have past := fits.past
    simp only [StartTables.live, seen_of_ne idle, present, Option.filter_eq_none_iff,
      decide_eq_true_eq] at live
    exact absurd (by omega) (live row rfl)
  | case12 | case22 => exact sound.rollsBack found
  | _ => exact sound

/-- So does every action. -/
theorem StartTables.Sound.step (alive : tables.Alive) (action : StartAction)
    : (tables.step codec ttl action).Sound codec ttl start := by
  fun_cases StartTables.step codec ttl tables action with
  | case1 seconds =>
    refine ⟨Nat.le_add_right_of_le sound.begun, sound.live, sound.rows, sound.writer, ?_⟩
    intro tx open' found
    exact (sound.fits tx open' found).frame (Nat.le_add_right _ _) (refl _) (.inl rfl)
  | case2 tx call fresh =>
    refine sound.setPhase (fun left held => ?_) (.early sound.begun (Nat.le_refl _) (.inl rfl))
    obtain ⟨open', found, _⟩ := sound.writer tx left held
    rw [fresh] at found
    cases found
  | case4 tx statement open' found => exact sound.advance alive found statement
  | case6 now expired =>
    obtain ⟨past, free, old⟩ := expired
    cases found : tables.key.row with
    | none => simp [found] at old
    | some row => exact sound.sweeps alive free found (Nat.le_trans (by simpa [found] using old) past)
  | _ => exact sound

end Invariant

section Runs

variable {codec : InputCodec} {ttl start : Nat} {tables after : StartTables}

/-- Within the lifetime of the key now, and so before. -/
theorem StartTables.Alive.before {action : StartAction}
    (alive : (tables.step codec ttl action).Alive) : tables.Alive := by
  revert alive
  fun_cases StartTables.step codec ttl tables action with
  | case1 =>
    exact fun alive row member => Nat.lt_of_le_of_lt (Nat.le_add_right _ _) (alive row member)
  | case4 tx statement open' =>
    fun_cases StartTables.advance codec ttl tables tx open' statement with
    | case14 => exact fun alive row member => alive row (List.mem_append_left _ member)
    | _ => exact id
  | _ => exact id

/-- What holds of the tables holds after any actions within the lifetime of the key. -/
theorem StartTables.sound_after (leftover : Option StartKeyRow)
    (old : ∀ row, leftover = some row → row.expiresAt ≤ start) (actions : List StartAction) :
    (stateAfter (StartTables.step codec ttl) { clock := start, key := { row := leftover } }
      actions).Alive →
    (stateAfter (StartTables.step codec ttl) { clock := start, key := { row := leftover } }
      actions).Sound codec ttl start := by
  refine stateAfter_invariant
    (fun tables : StartTables => tables.Alive → tables.Sound codec ttl start) ?_ ?_ actions
  · intro tables action sound alive
    exact (sound alive.before).step alive.before action
  · intro _
    exact ⟨Nat.le_refl _, .inl ⟨rfl, old⟩, nofun, nofun, nofun⟩

/-- The start is refused because the key is held for another one. -/
def StartAnswer.Mismatch : StartAnswer → Prop
  | .defMismatch .. | .inputMismatch .. => True
  | _ => False

attribute [local simp] StartAnswer.Mismatch

/-- A row is compared by the definition and by what the inputs are decoded to. -/
theorem StartKeyRow.answer_cases {row : StartKeyRow} {call : StartCall} (named : row.defName.isSome)
    (digest : row.inputDigest = some (idempotencyInputDigest codec row.input))
    (distinct : codec.sha256Hex (canonical codec call.input) =
        codec.sha256Hex (canonical codec row.input) →
      canonical codec call.input = canonical codec row.input) :
    (row.defName = some call.defName ∧ decoded codec call.input = decoded codec row.input) ∧
        row.answer codec call = .existing row.workflowID ∨
      ¬ (row.defName = some call.defName ∧ decoded codec call.input = decoded codec row.input) ∧
        (row.answer codec call).Mismatch := by
  obtain ⟨name, named⟩ := Option.isSome_iff_exists.mp named
  have compared : checkIdempotencyInput row.inputDigest (idempotencyInputDigest codec call.input) =
      true ↔ decoded codec call.input = decoded codec row.input := by
    have digested : idempotencyInputDigest codec row.input ≠ "" := codec.digested _
    rw [← canonical_eq_iff, digest]
    simp only [checkIdempotencyInput, digested, decide_false, Bool.false_or, decide_eq_true_eq]
    exact ⟨fun same => distinct same.symm, fun same => congrArg codec.sha256Hex same.symm⟩
  have apart : row.defName.any (· ≠ call.defName) = true ↔ name ≠ call.defName := by simp [named]
  unfold StartKeyRow.answer
  rw [named, Option.some.injEq, ← named]
  by_cases other : name = call.defName
  · rw [if_neg fun differs => apart.mp differs other]
    by_cases same : decoded codec call.input = decoded codec row.input
    · rw [if_pos (compared.mpr same)]
      exact .inl ⟨⟨other, same⟩, rfl⟩
    · rw [if_neg (mt compared.mp same)]
      exact .inr ⟨fun both => same both.2, trivial⟩
  · rw [if_pos (apart.mpr other)]
    exact .inr ⟨fun both => other both.1, trivial⟩

/-- Starts with one key within its lifetime. At most one run is made. Every call that returns, if
nothing outside has failed it, gets this run or is refused; and it gets the run exactly if it names
the same definition and has the same input, as long as decoding tells its input from the creator's
exactly if they are different values. Proof: by induction over the statements. A row that was
committed stays until it expires, and a call that conflicts finds it. -/
theorem idempotent_start (leftover : Option StartKeyRow)
    (old : ∀ row, leftover = some row → row.expiresAt ≤ start) (actions : List StartAction)
    (tables : StartTables) (reached : tables = stateAfter (StartTables.step codec ttl)
      { clock := start, key := { row := leftover } } actions) (alive : tables.Alive)
    (distinct : ∀ tx open', tables.calls tx = some open' → ∀ row ∈ tables.created,
      codec.sha256Hex (canonical codec open'.call.input) =
          codec.sha256Hex (canonical codec row.input) →
        canonical codec open'.call.input = canonical codec row.input) :
    tables.created.length ≤ 1 ∧
      ∀ tx open' answer, tables.calls tx = some open' → open'.phase = .returned answer →
        answer ≠ .failed → ∃ row ∈ tables.created,
          (answer = .started row.workflowID ∨ answer = .existing row.workflowID ∨
            answer.Mismatch) ∧
          ((¬ answer.Mismatch ↔
              row.defName = some open'.call.defName ∧ SameInput codec open'.call.input row.input) ↔
            (row.defName = some open'.call.defName →
              Told codec open'.call.input row.input)) := by
  have sound := StartTables.sound_after leftover old actions (reached ▸ alive)
  rw [← reached] at sound
  constructor
  · rcases sound.live with ⟨empty, _⟩ | ⟨row, created, _⟩
    · simp [empty]
    · simp [created]
  · intro tx open' answer found phase silent
    obtain ⟨row, member, settles⟩ := (sound.fits tx open' found).answered answer phase silent
    obtain ⟨named, digest⟩ := sound.rows row member
    refine ⟨row, member, ?_⟩
    rcases settles with ⟨rfl, name, input⟩ | rfl
    · refine ⟨.inl rfl, ?_⟩
      simp [name, Told, input]
    · rcases StartKeyRow.answer_cases named digest (distinct tx open' found row member) with
        ⟨⟨name, same⟩, answer⟩ | ⟨differ, mismatch⟩
      · rw [answer]
        refine ⟨.inr (.inl rfl), ?_⟩
        simp [name, Told, same]
      · refine ⟨.inr (.inr mismatch), ?_⟩
        simp only [mismatch, not_true_eq_false, false_iff, Told]
        constructor
        · intro different name
          exact iff_of_false (fun same => differ ⟨name, same⟩) fun same => different ⟨name, same⟩
        · rintro told ⟨name, same⟩
          exact differ ⟨name, (told name).mpr same⟩

/-- Two texts of integers, of which one is no double. -/
def twoIntegers (text : String) : Option Json :=
  if text = "9007199254740992" then some (.number false 9007199254740992)
  else if text = "9007199254740993" then some (.number false 9007199254740993)
  else none

attribute [local simp] twoIntegers

/-- Both are decoded to the even one. -/
theorem unmarshal_twoIntegers {text : String} {value : Json}
    (read : unmarshal twoIntegers text = some value) : value = .number false 9007199254740992 := by
  have even : nearestDouble 9007199254740992 = some 9007199254740992 := by decide +kernel
  have odd : nearestDouble 9007199254740993 = some 9007199254740992 := by decide +kernel
  unfold unmarshal twoIntegers at read
  split at read
  · simpa [Json.depth, even, eq_comm] using read
  · split at read
    · simpa [Json.depth, odd, eq_comm] using read
    · cases read

def integerCodec : InputCodec where
  parse := twoIntegers
  marshal _ := "9007199254740992"
  sha256Hex text := "#" ++ text
  roundTrip := by
    intro text value read
    rw [unmarshal_twoIntegers read]
    have even : nearestDouble 9007199254740992 = some 9007199254740992 := by decide +kernel
    simp [unmarshal, Json.depth, even]
  digested := by simp

/-- One whole start, and a second call that looks for the key. -/
def startedThenAsked (first second : StartCall) : List StartAction :=
  [.begin' 1 first, .run 1 .select, .run 1 .clear, .run 1 .insert, .run 1 (.make true),
    .run 1 (.commit true), .tick 5, .begin' 2 second, .run 2 .select]

/-- A start that is repeated. -/
theorem idempotent_start_repeated :
    ∃ tables, tables = stateAfter (StartTables.step integerCodec 10) {}
        (startedThenAsked ⟨"r", "d", "9007199254740992"⟩ ⟨"s", "d", "9007199254740992"⟩) ∧
      tables.created.length ≤ 1 ∧ ∃ open' row, tables.calls 2 = some open' ∧ row ∈ tables.created ∧
        open'.phase = .returned (.existing "r") ∧
        SameInput integerCodec open'.call.input row.input := by
  refine ⟨_, rfl, ?_⟩
  obtain ⟨single, answers⟩ := @idempotent_start integerCodec 10 0 none nofun
    (startedThenAsked ⟨"r", "d", "9007199254740992"⟩ ⟨"s", "d", "9007199254740992"⟩) _ rfl
    (by unfold StartTables.Alive; decide +kernel)
    (fun _ _ _ _ _ same => by simpa [integerCodec] using same)
  have found : (stateAfter (StartTables.step integerCodec 10) {}
      (startedThenAsked ⟨"r", "d", "9007199254740992"⟩ ⟨"s", "d", "9007199254740992"⟩)).calls 2 =
        some ⟨⟨"s", "d", "9007199254740992"⟩, 5, .returned (.existing "r")⟩ := by decide +kernel
  have created : (stateAfter (StartTables.step integerCodec 10) {}
      (startedThenAsked ⟨"r", "d", "9007199254740992"⟩ ⟨"s", "d", "9007199254740992"⟩)).created =
        [⟨"r", 10, some "d", some "#9007199254740992", "9007199254740992"⟩] := by decide +kernel
  obtain ⟨row, member, _, exact'⟩ := answers 2 _ _ found rfl (by nofun)
  have same : row = ⟨"r", 10, some "d", some "#9007199254740992", "9007199254740992"⟩ := by
    simpa [created] using member
  subst same
  refine ⟨single, _, _, found, member, rfl, ?_⟩
  have told : Told integerCodec "9007199254740992" "9007199254740992" := by
    simp [Told, SameInput, integerCodec]
  exact ((exact'.mpr fun _ => told).mp (by simp)).2

/-- Two integers that round to one double: the second caller gets the run of the first, which has
another input. -/
theorem started_with_other_input :
    ∃ tables, tables = stateAfter (StartTables.step integerCodec 10) {}
        (startedThenAsked ⟨"r", "d", "9007199254740993"⟩ ⟨"s", "d", "9007199254740992"⟩) ∧
      ∃ open' row, tables.calls 2 = some open' ∧ tables.created = [row] ∧
        open'.phase = .returned (.existing row.workflowID) ∧
        ¬ SameInput integerCodec open'.call.input row.input := by
  refine ⟨_, rfl, ⟨⟨"s", "d", "9007199254740992"⟩, 5, .returned (.existing "r")⟩,
    ⟨"r", 10, some "d", some "#9007199254740992", "9007199254740993"⟩, ?_, ?_, rfl, ?_⟩
  · decide +kernel
  · decide +kernel
  · simp [SameInput, integerCodec, exactReading]

end Runs

end Cleat.Store
