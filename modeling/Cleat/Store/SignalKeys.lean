import Cleat.Durable.Machine
import Cleat.Durable.Unique

/-!
# Signals that carry a token

A signal may carry an idempotency token. Its delivery is one transaction: the hash of the token is
inserted into `idempotency_keys`, doing nothing on a conflict, then the signal's row is written. If
the key conflicts, the call answers that the signal was already delivered.

The transactions of any number of calls interleave statement by statement under read committed.
What `now()` gives is the time at which a transaction has begun. A sweep may delete rows that have
expired. Times and the lifetime of a token are in seconds.

A key row does not say which signal it was written for; here it carries the name and the token of
that signal as history.
-/
namespace Cleat.Store

open Durable List Option Slot

section Calls

structure SignalCall where
  workflowID : String
  signalName : String
  payload : String
  idempotencyKey : String
deriving DecidableEq

/-- A row of `idempotency_keys`. The last two fields are history. -/
structure SignalKeyRow where
  workflowID : String
  expiresAt : Nat
  signalName : String
  idempotencyKey : String
deriving DecidableEq

/-- A committed row of `workflow_signals`, with the call that wrote it, when it was written and
when its token expires. -/
structure Delivery where
  call : SignalCall
  writtenAt : Nat
  expiresAt : Nat
deriving DecidableEq

inductive SignalAnswer where
  | alreadyDelivered | delivered | failed
deriving DecidableEq

/-- How far a call has come. A key is claimed and a row is written at a time. -/
inductive SignalPhase where
  | begun
  | claimed (at' : Nat)
  | written (at' : Nat)
  | returned (answer : SignalAnswer)
deriving DecidableEq

/-- A call with what `now()` gives in its transaction. -/
structure SignalTx where
  call : SignalCall
  now : Nat
  phase : SignalPhase := .begun
deriving DecidableEq

structure SignalTables (Hash : Type) where
  clock : Nat := 0
  calls : Nat → Option SignalTx := fun _ => none
  keys : Hash → Slot Nat SignalKeyRow := fun _ => {}
  deliveries : List Delivery := []

/-- What becomes of the two writes of a delivery: there is no such workflow, or the statements
fail. -/
inductive WriteOutcome where
  | ok | notFound | failed
deriving DecidableEq

inductive SignalAction (Hash : Type) where
  | tick (seconds : Nat)
  | begin' (tx : Nat) (call : SignalCall)
  | insertKey (tx : Nat)
  | deliver (tx : Nat) (outcome : WriteOutcome)
  | commit (tx : Nat) (reported : Bool)
  | abort (tx : Nat)
  | sweep (key : Hash) (now : Nat)
deriving DecidableEq

end Calls

section Steps

variable {Hash : Type} [DecidableEq Hash] (signalIdempotencyHash : String → Hash) (ttl : Nat)

namespace SignalTables

variable (tables : SignalTables Hash)

def setPhase (tx : Nat) (open' : SignalTx) (phase : SignalPhase) : SignalTables Hash :=
  { tables with calls := Function.update tables.calls tx (some { open' with phase }) }

def setKey (key : Hash) (slot : Slot Nat SignalKeyRow) : SignalTables Hash :=
  { tables with keys := Function.update tables.keys key slot }

/-- The key row that a call writes. -/
def keyRow (open' : SignalTx) : SignalKeyRow where
  workflowID := open'.call.workflowID
  expiresAt := open'.now + ttl
  signalName := open'.call.signalName
  idempotencyKey := open'.call.idempotencyKey

/-- The key is claimed. A call without a token delivers and records nothing. -/
def insertKey (tx : Nat) (open' : SignalTx) : SignalTables Hash :=
  if open'.call.idempotencyKey = "" then tables.setPhase tx open' (.claimed tables.clock)
  else
    let key := signalIdempotencyHash open'.call.idempotencyKey
    let result := (tables.keys key).insert tx (keyRow ttl open')
    match result.1 with
    | .waits => tables
    | .conflict => tables.setPhase tx open' (.returned .alreadyDelivered)
    | .inserted => (tables.setKey key result.2).setPhase tx open' (.claimed tables.clock)

/-- The transaction ends, and its key row is there or not. -/
def finish (tx : Nat) (open' : SignalTx) (committed : Bool) (answer : SignalAnswer) :
    SignalTables Hash :=
  let key := signalIdempotencyHash open'.call.idempotencyKey
  (tables.setKey key ((tables.keys key).finish tx committed)).setPhase tx open' (.returned answer)

def step : SignalAction Hash → SignalTables Hash
  | .tick seconds => { tables with clock := tables.clock + seconds }
  | .begin' tx call =>
    match tables.calls tx with
    | none => tables.setPhase tx { call, now := tables.clock } .begun
    | some _ => tables
  | .insertKey tx =>
    match tables.calls tx with
    | some open' =>
      match open'.phase with
      | .begun => tables.insertKey signalIdempotencyHash ttl tx open'
      | _ => tables
    | none => tables
  | .deliver tx outcome =>
    match tables.calls tx with
    | some open' =>
      match open'.phase, outcome with
      | .claimed _, .ok => tables.setPhase tx open' (.written tables.clock)
      | .claimed _, _ => tables.finish signalIdempotencyHash tx open' false .failed
      | _, _ => tables
    | none => tables
  | .commit tx reported =>
    match tables.calls tx with
    | some open' =>
      match open'.phase with
      | .written writtenAt =>
        { tables.finish signalIdempotencyHash tx open' true
            (if reported then .delivered else .failed) with
          deliveries := tables.deliveries ++
            [{ call := open'.call, writtenAt, expiresAt := open'.now + ttl }] }
      | _ => tables
    | none => tables
  | .abort tx =>
    match tables.calls tx with
    | some open' =>
      match open'.phase with
      | .returned _ => tables
      | _ => tables.finish signalIdempotencyHash tx open' false .failed
    | none => tables
  | .sweep key now =>
    if now ≤ tables.clock ∧ (tables.keys key).writer = none ∧
        (tables.keys key).row.any (fun row => row.expiresAt ≤ now) then tables.setKey key {}
    else tables

/-- A key that conflicts is not expired for the call and was written for the same workflow and the
same signal. -/
def meets : SignalAction Hash → Bool
  | .insertKey tx =>
    match tables.calls tx with
    | some open' =>
      match (tables.keys (signalIdempotencyHash open'.call.idempotencyKey)).row with
      | some row =>
        open'.phase ≠ .begun || open'.call.idempotencyKey = "" ||
          (open'.now < row.expiresAt && row.workflowID = open'.call.workflowID &&
            row.signalName = open'.call.signalName)
      | none => true
    | none => true
  | _ => true

end SignalTables

end Steps

section Invariant

variable {Hash : Type} (signalIdempotencyHash : String → Hash) (ttl : Nat)

/-- The call carries a token that is filed under the key. -/
def SignalCall.Keyed (call : SignalCall) (key : Hash) : Prop :=
  call.idempotencyKey ≠ "" ∧ signalIdempotencyHash call.idempotencyKey = key

/-- The key row of a delivery. -/
def Delivery.keyRow (delivery : Delivery) : SignalKeyRow where
  workflowID := delivery.call.workflowID
  expiresAt := delivery.expiresAt
  signalName := delivery.call.signalName
  idempotencyKey := delivery.call.idempotencyKey

/-- The call has claimed its key at a time and not ended. -/
def SignalTx.Holds (open' : SignalTx) (at' : Nat) : Prop :=
  open'.phase = .claimed at' ∨ open'.phase = .written at'

attribute [local simp] SignalTx.Holds

namespace SignalTables

/-- Who holds a key has claimed it when the lifetime of every earlier delivery was over; a committed
key row belongs to a delivery; and a delivery has its key row until it expires. -/
structure Sound (tables : SignalTables Hash) : Prop where
  held : ∀ key tx left, (tables.keys key).writer = some (tx, left) →
    (tables.keys key).row = none ∧ ∃ open' at', tables.calls tx = some open' ∧ open'.Holds at' ∧
      open'.call.Keyed signalIdempotencyHash key ∧ left = some (keyRow ttl open') ∧
      at' ≤ tables.clock ∧
      ∀ delivery ∈ tables.deliveries, delivery.call.Keyed signalIdempotencyHash key →
        delivery.expiresAt ≤ at'
  holds : ∀ tx open' at' key, tables.calls tx = some open' → open'.Holds at' →
    open'.call.Keyed signalIdempotencyHash key → ∃ left, (tables.keys key).writer = some (tx, left)
  filed : ∀ key row, (tables.keys key).row = some row →
    ∃ delivery ∈ tables.deliveries,
      delivery.call.Keyed signalIdempotencyHash key ∧ row = delivery.keyRow
  current : ∀ key, ∀ delivery ∈ tables.deliveries, delivery.call.Keyed signalIdempotencyHash key →
    (tables.keys key).row = some delivery.keyRow ∨ delivery.expiresAt ≤ tables.clock
  spaced : tables.deliveries.Pairwise fun earlier later =>
    ∀ key, earlier.call.Keyed signalIdempotencyHash key →
      later.call.Keyed signalIdempotencyHash key → earlier.expiresAt ≤ later.writtenAt

variable {signalIdempotencyHash ttl} {tables : SignalTables Hash} {tx : Nat} {open' : SignalTx}

theorem setPhase_calls (phase : SignalPhase) (other : Nat) :
    (tables.setPhase tx open' phase).calls other =
      if other = tx then some { open' with phase } else tables.calls other :=
  Function.update_apply ..

theorem setKey_keys [DecidableEq Hash] (key other : Hash)
    (slot : Slot Nat SignalKeyRow) :
    (tables.setKey key slot).keys other = if other = key then slot else tables.keys other :=
  Function.update_apply ..

/-- A call is the one that moved, or as it was. -/
theorem of_setPhase {phase : SignalPhase} {other : Nat} {holder : SignalTx}
    (found : (tables.setPhase tx open' phase).calls other = some holder) :
    other = tx ∧ { open' with phase } = holder ∨ other ≠ tx ∧ tables.calls other = some holder := by
  rw [setPhase_calls] at found
  split at found
  · exact .inl ⟨‹_›, some.inj found⟩
  · exact .inr ⟨‹_›, found⟩

variable (sound : tables.Sound signalIdempotencyHash ttl)

include sound

/-- A call that has claimed no key holds none. -/
theorem Sound.idle
    (idle : ∀ open' at', tables.calls tx = some open' → open'.Holds at' →
      open'.call.idempotencyKey = "") (key : Hash) (left : Option SignalKeyRow) :
    (tables.keys key).writer ≠ some (tx, left) := by
  intro own
  obtain ⟨_, open', at', found, holds, keyed, _⟩ := sound.held key tx left own
  exact keyed.1 (idle open' at' found holds)

theorem Sound.begun (found : tables.calls tx = some open')
    (phase : open'.phase = .begun) : ∀ key left, (tables.keys key).writer ≠ some (tx, left) := by
  apply sound.idle
  intro other at' found' holds
  rw [found, some.injEq] at found'
  subst found'
  simp [phase] at holds

/-- A call that holds no key moves on without claiming one. -/
theorem Sound.setPhase (idle : ∀ key left, (tables.keys key).writer ≠ some (tx, left))
    {phase : SignalPhase}
    (unkeyed : ∀ at', SignalTx.Holds { open' with phase } at' → open'.call.idempotencyKey = "") :
    (tables.setPhase tx open' phase).Sound signalIdempotencyHash ttl := by
  constructor
  case filed => exact sound.filed
  case current => exact sound.current
  case spaced => exact sound.spaced
  case held =>
    intro key other left own
    obtain ⟨empty, holder, at', found, rest⟩ := sound.held key other left own
    refine ⟨empty, holder, at', ?_, rest⟩
    rw [setPhase_calls, if_neg, found]
    rintro rfl
    exact idle key left own
  case holds =>
    intro other holder at' key found holds keyed
    obtain ⟨rfl, rfl⟩ | ⟨_, found⟩ := of_setPhase found
    · exact absurd (unkeyed at' holds) keyed.1
    · exact sound.holds other holder at' key found holds keyed

/-- The signal's row is written by the call that holds the key. -/
theorem Sound.writes {at' : Nat} (found : tables.calls tx = some open')
    (phase : open'.phase = .claimed at') :
    (tables.setPhase tx open' (.written tables.clock)).Sound signalIdempotencyHash ttl := by
  constructor
  case filed => exact sound.filed
  case current => exact sound.current
  case spaced => exact sound.spaced
  case held =>
    intro key other left own
    obtain ⟨empty, holder, since, found', holds, keyed, row, past, over'⟩ :=
      sound.held key other left own
    refine ⟨empty, ?_⟩
    rw [setPhase_calls]
    by_cases same : other = tx
    · subst same
      rw [found, some.injEq] at found'
      subst found'
      rw [if_pos rfl]
      exact ⟨_, tables.clock, rfl, .inr rfl, keyed, row, Nat.le_refl _,
        fun delivery member keyed' => Nat.le_trans (over' delivery member keyed') past⟩
    · rw [if_neg same]
      exact ⟨holder, since, found', holds, keyed, row, past, over'⟩
  case holds =>
    intro other holder since key found' holds keyed
    obtain ⟨rfl, rfl⟩ | ⟨_, found'⟩ := of_setPhase found'
    · exact sound.holds other open' at' key found (.inl phase) keyed
    · exact sound.holds other holder since key found' holds keyed

variable [DecidableEq Hash]

/-- A call that finds its key free claims it. -/
theorem Sound.claims {key : Hash} (found : tables.calls tx = some open')
    (phase : open'.phase = .begun) (keyed : open'.call.Keyed signalIdempotencyHash key)
    (free : (tables.keys key).busy tx = false) (seen : (tables.keys key).seen tx = none) :
    ((tables.setKey key { tables.keys key with
      writer := some (tx, some (keyRow ttl open')) }).setPhase tx open'
        (.claimed tables.clock)).Sound signalIdempotencyHash ttl := by
  have idle := sound.begun found phase
  have nobody := writer_eq_none free (idle key)
  rw [seen_of_ne (idle key)] at seen
  have rows : ∀ other, ((tables.setKey key { tables.keys key with
      writer := some (tx, some (keyRow ttl open')) }).keys other).row = (tables.keys other).row := by
    intro other
    rw [setKey_keys]
    by_cases same : other = key
    · rw [if_pos same, same]
    · rw [if_neg same]
  constructor
  case spaced => exact sound.spaced
  case filed =>
    intro other row present
    exact sound.filed other row ((rows other).symm.trans present)
  case current =>
    intro other delivery member keyed'
    exact (sound.current other delivery member keyed').imp_left (rows other).trans
  case held =>
    intro other holder left own
    change ((tables.setKey key _).keys other).writer = _ at own
    rw [setKey_keys] at own
    change ((tables.setKey key _).keys other).row = none ∧ _
    rw [rows, setPhase_calls]
    by_cases same : other = key
    · subst same
      rw [if_pos rfl, some.injEq, Prod.mk.injEq] at own
      obtain ⟨rfl, rfl⟩ := own
      rw [if_pos rfl]
      refine ⟨seen, _, tables.clock, rfl, .inl rfl, keyed, rfl, Nat.le_refl _, ?_⟩
      intro delivery member keyed'
      apply (sound.current other delivery member keyed').resolve_left
      rw [seen]
      nofun
    · rw [if_neg same] at own
      rw [if_neg]
      · exact sound.held other holder left own
      · rintro rfl
        exact idle other left own
  case holds =>
    intro other holder at' key' found' holds keyed'
    change ∃ left, ((tables.setKey key _).keys key').writer = some (other, left)
    rw [setKey_keys]
    obtain ⟨rfl, rfl⟩ | ⟨_, found'⟩ := of_setPhase found'
    · rw [if_pos (keyed'.2.symm.trans keyed.2)]
      exact ⟨_, rfl⟩
    · obtain ⟨left, own⟩ := sound.holds other holder at' key' found' holds keyed'
      rw [if_neg]
      · exact ⟨left, own⟩
      · rintro rfl
        rw [nobody] at own
        cases own

/-- The end of a call's transaction leaves the keys of the others alone. -/
theorem finish_writer (found : tables.calls tx = some open') (committed : Bool)
    (answer : SignalAnswer) {key : Hash} {other : Nat} {left : Option SignalKeyRow} :
    ((tables.finish signalIdempotencyHash tx open' committed answer).keys key).writer =
        some (other, left) ↔ (tables.keys key).writer = some (other, left) ∧ other ≠ tx := by
  change ((tables.setKey _ _).keys key).writer = _ ↔ _
  rw [setKey_keys]
  by_cases same : key = signalIdempotencyHash open'.call.idempotencyKey
  · rw [if_pos same, writer_finish, same]
  · rw [if_neg same, iff_self_and]
    rintro own rfl
    obtain ⟨_, holder, _, found', _, keyed, _⟩ := sound.held key other left own
    rw [found, some.injEq] at found'
    subst found'
    exact same keyed.2.symm

/-- A transaction that is rolled back gives its key free again. -/
theorem Sound.rollsBack (found : tables.calls tx = some open')
    (answer : SignalAnswer) :
    (tables.finish signalIdempotencyHash tx open' false answer).Sound signalIdempotencyHash ttl := by
  have rows : ∀ key, ((tables.finish signalIdempotencyHash tx open' false answer).keys key).row =
      (tables.keys key).row := by
    intro key
    change ((tables.setKey _ _).keys key).row = _
    rw [SignalTables.setKey_keys]
    by_cases same : key = signalIdempotencyHash open'.call.idempotencyKey
    · rw [if_pos same, row_finish_false, same]
    · rw [if_neg same]
  constructor
  case spaced => exact sound.spaced
  case filed =>
    intro key row present
    exact sound.filed key row ((rows key).symm.trans present)
  case current =>
    intro key delivery member keyed
    exact (sound.current key delivery member keyed).imp_left (rows key).trans
  case held =>
    intro key other left own
    obtain ⟨own, apart⟩ := (SignalTables.finish_writer sound found false answer).mp own
    rw [rows]
    change _ ∧ ∃ holder at', (SignalTables.setPhase _ tx open' _).calls other = some holder ∧ _
    rw [SignalTables.setPhase_calls, if_neg apart]
    exact sound.held key other left own
  case holds =>
    intro other holder at' key found' holds keyed
    obtain ⟨rfl, rfl⟩ | ⟨same, found'⟩ := SignalTables.of_setPhase found'
    · simp at holds
    · obtain ⟨left, own⟩ := sound.holds other holder at' key found' holds keyed
      exact ⟨left, (SignalTables.finish_writer sound found false answer).mpr ⟨own, same⟩⟩

/-- A sweep takes away a row whose lifetime is over. -/
theorem Sound.sweeps {key : Hash} {row : SignalKeyRow}
    (free : (tables.keys key).writer = none) (found : (tables.keys key).row = some row)
    (expired : row.expiresAt ≤ tables.clock) :
    (tables.setKey key {}).Sound signalIdempotencyHash ttl := by
  constructor
  case spaced => exact sound.spaced
  case filed =>
    intro other row' present
    rw [setKey_keys] at present
    by_cases same : other = key
    · rw [if_pos same] at present
      cases present
    · rw [if_neg same] at present
      exact sound.filed other row' present
  case current =>
    intro other delivery member keyed
    rw [setKey_keys]
    by_cases same : other = key
    · subst same
      right
      rcases sound.current other delivery member keyed with present | past
      · rw [found, some.injEq] at present
        subst present
        exact expired
      · exact past
    · rw [if_neg same]
      exact sound.current other delivery member keyed
  case held =>
    intro other holder left own
    rw [setKey_keys] at own ⊢
    by_cases same : other = key
    · rw [if_pos same] at own
      cases own
    · rw [if_neg same] at own ⊢
      exact sound.held other holder left own
  case holds =>
    intro other holder at' key' found' holds keyed
    obtain ⟨left, own⟩ := sound.holds other holder at' key' found' holds keyed
    rw [setKey_keys, if_neg]
    · exact ⟨left, own⟩
    · rintro rfl
      rw [free] at own
      cases own

/-- A delivery is committed together with its key row. -/
theorem Sound.commits {at' : Nat} (found : tables.calls tx = some open')
    (phase : open'.phase = .written at') (answer : SignalAnswer) :
    ({ tables.finish signalIdempotencyHash tx open' true answer with
      deliveries := tables.deliveries ++
        [{ call := open'.call, writtenAt := at', expiresAt := open'.now + ttl }] } :
          SignalTables Hash).Sound signalIdempotencyHash ttl := by
  -- What the call's own key holds, if it has a token.
  have own : ∀ key, open'.call.Keyed signalIdempotencyHash key →
      (tables.keys key).row = none ∧
        ((tables.finish signalIdempotencyHash tx open' true answer).keys key).row =
          some (keyRow ttl open') ∧
        ∀ delivery ∈ tables.deliveries, delivery.call.Keyed signalIdempotencyHash key →
          delivery.expiresAt ≤ at' := by
    intro key keyed
    obtain ⟨left, own⟩ := sound.holds tx open' at' key found (.inr phase) keyed
    obtain ⟨empty, holder, since, found', holds, _, row, _, past⟩ := sound.held key tx left own
    rw [found, some.injEq] at found'
    subst found'
    have same : since = at' := by simpa [phase, eq_comm] using holds
    subst same
    refine ⟨empty, ?_, past⟩
    change ((tables.setKey _ _).keys key).row = _
    rw [SignalTables.setKey_keys, if_pos keyed.2.symm, keyed.2, finish_of_writer own, row]
    rfl
  -- The other keys keep their rows.
  have others : ∀ key, ¬ open'.call.Keyed signalIdempotencyHash key →
      ((tables.finish signalIdempotencyHash tx open' true answer).keys key).row =
        (tables.keys key).row := by
    intro key unkeyed
    change ((tables.setKey _ _).keys key).row = _
    rw [SignalTables.setKey_keys]
    by_cases same : key = signalIdempotencyHash open'.call.idempotencyKey
    · rw [if_pos same, finish_of_ne, same]
      intro left own
      obtain ⟨_, holder, _, found', _, keyed, _⟩ := sound.held _ tx left own
      rw [found, some.injEq] at found'
      subst found'
      exact unkeyed (same ▸ keyed)
    · rw [if_neg same]
  constructor
  case spaced =>
    rw [pairwise_append]
    refine ⟨sound.spaced, pairwise_singleton _ _, ?_⟩
    intro earlier member later new key keyed keyed'
    rw [mem_singleton] at new
    subst new
    exact (own key keyed').2.2 earlier member keyed
  case filed =>
    intro key row present
    by_cases keyed : open'.call.Keyed signalIdempotencyHash key
    · refine ⟨_, mem_append_right _ mem_cons_self, keyed, ?_⟩
      exact some.inj (present.symm.trans (own key keyed).2.1)
    · obtain ⟨delivery, member, rest⟩ := sound.filed key row ((others key keyed).symm.trans present)
      exact ⟨delivery, mem_append_left _ member, rest⟩
  case current =>
    intro key delivery member keyed
    rcases mem_append.mp member with old | new
    · by_cases keyed' : open'.call.Keyed signalIdempotencyHash key
      · right
        apply (sound.current key delivery old keyed).resolve_left
        rw [(own key keyed').1]
        nofun
      · exact (sound.current key delivery old keyed).imp_left (others key keyed').trans
    · rw [mem_singleton] at new
      subst new
      exact .inl (own key keyed).2.1
  case held =>
    intro key other left holds
    obtain ⟨before, apart⟩ := (SignalTables.finish_writer sound found true answer).mp holds
    obtain ⟨empty, holder, since, found', held, keyed, row, past, bound⟩ :=
      sound.held key other left before
    have foreign : ¬ open'.call.Keyed signalIdempotencyHash key := by
      intro keyed'
      obtain ⟨left', own'⟩ := sound.holds tx open' at' key found (.inr phase) keyed'
      rw [before, some.injEq, Prod.mk.injEq] at own'
      exact apart own'.1
    refine ⟨(others key foreign).trans empty, holder, since, ?_, held, keyed, row, past, ?_⟩
    · change (SignalTables.setPhase _ tx open' _).calls other = _
      rw [SignalTables.setPhase_calls, if_neg apart]
      exact found'
    · intro delivery member keyed'
      rcases mem_append.mp member with old | new
      · exact bound delivery old keyed'
      · rw [mem_singleton] at new
        subst new
        exact absurd keyed' foreign
  case holds =>
    intro other holder since key found' holds keyed
    obtain ⟨rfl, rfl⟩ | ⟨same, found'⟩ := SignalTables.of_setPhase found'
    · simp at holds
    · obtain ⟨left, own⟩ := sound.holds other holder since key found' holds keyed
      exact ⟨left, (SignalTables.finish_writer sound found true answer).mpr ⟨own, same⟩⟩

theorem Sound.insertKey (found : tables.calls tx = some open')
    (phase : open'.phase = .begun) :
    (tables.insertKey signalIdempotencyHash ttl tx open').Sound signalIdempotencyHash ttl := by
  have idle := sound.begun found phase
  fun_cases SignalTables.insertKey signalIdempotencyHash ttl tables tx open' with
  | case1 token => exact sound.setPhase idle fun at' holds => token
  | case2 => exact sound
  | case3 token =>
    refine sound.setPhase idle fun at' holds => ?_
    simp at holds
  | case4 token key result inserted =>
    obtain ⟨free, seen, same⟩ := of_inserted inserted
    rw [show result.2 = _ from same]
    exact sound.claims found phase ⟨token, rfl⟩ free seen

theorem Sound.step (action : SignalAction Hash) :
    (tables.step signalIdempotencyHash ttl action).Sound signalIdempotencyHash ttl := by
  fun_cases SignalTables.step signalIdempotencyHash ttl tables action with
  | case1 seconds =>
    constructor
    case spaced => exact sound.spaced
    case filed => exact sound.filed
    case holds => exact sound.holds
    case current =>
      intro key delivery member keyed
      exact (sound.current key delivery member keyed).imp_right fun past =>
        Nat.le_add_right_of_le past
    case held =>
      intro key tx left own
      obtain ⟨empty, holder, since, found, holds, keyed, row, past, bound⟩ :=
        sound.held key tx left own
      exact ⟨empty, holder, since, found, holds, keyed, row, Nat.le_add_right_of_le past, bound⟩
  | case2 tx call fresh =>
    refine sound.setPhase (sound.idle fun open' at' found => ?_) fun at' holds => ?_
    · rw [fresh] at found
      cases found
    · simp at holds
  | case4 tx open' found phase => exact sound.insertKey found phase
  | case7 tx open' found at' phase => exact sound.writes found phase
  | case8 _ _ _ found | case15 _ _ found => exact sound.rollsBack found .failed
  | case11 tx reported open' found at' phase => exact sound.commits found phase _
  | case17 key now expired =>
    obtain ⟨past, free, old⟩ := expired
    cases found : (tables.keys key).row with
    | none => simp [found] at old
    | some row => exact sound.sweeps free found (Nat.le_trans (by simpa [found] using old) past)
  | _ => exact sound

end SignalTables

end Invariant

section Runs

variable {Hash : Type} (signalIdempotencyHash : String → Hash) (ttl : Nat)

/-- A call that answers that its signal was already delivered finds a delivery of the same signal to
the same workflow under the same key, whose lifetime is not over for the call. -/
def SignalTables.Justified (tables : SignalTables Hash) : Prop :=
  ∀ tx open', tables.calls tx = some open' → open'.phase = .returned .alreadyDelivered →
    open'.call.idempotencyKey ≠ "" ∧ ∃ delivery ∈ tables.deliveries,
      delivery.call.Keyed signalIdempotencyHash (signalIdempotencyHash open'.call.idempotencyKey) ∧
      delivery.call.workflowID = open'.call.workflowID ∧
      delivery.call.signalName = open'.call.signalName ∧ open'.now < delivery.expiresAt

variable {signalIdempotencyHash ttl} {tables : SignalTables Hash}

/-- Deliveries stay, and a call that moves on does not answer that it was already delivered. -/
theorem SignalTables.Justified.mono (justified : tables.Justified signalIdempotencyHash)
    {after : SignalTables Hash} (deliveries : tables.deliveries ⊆ after.deliveries)
    (calls : ∀ tx open', after.calls tx = some open' → open'.phase = .returned .alreadyDelivered →
      tables.calls tx = some open') : after.Justified signalIdempotencyHash := by
  intro tx open' found phase
  obtain ⟨token, delivery, member, rest⟩ := justified tx open' (calls tx open' found phase) phase
  exact ⟨token, delivery, deliveries member, rest⟩

variable [DecidableEq Hash]

theorem SignalTables.Justified.step {action : SignalAction Hash}
    (justified : tables.Justified signalIdempotencyHash)
    (sound : tables.Sound signalIdempotencyHash ttl)
    (meets : tables.meets signalIdempotencyHash action = true) :
    (tables.step signalIdempotencyHash ttl action).Justified signalIdempotencyHash := by
  -- A call goes on to a phase in which it has not given this answer.
  have moves : ∀ {tx : Nat} {open' : SignalTx} {phase : SignalPhase} {before : SignalTables Hash},
      before.calls = tables.calls → phase ≠ .returned .alreadyDelivered →
      ∀ tx' open'', (before.setPhase tx open' phase).calls tx' = some open'' →
        open''.phase = .returned .alreadyDelivered → tables.calls tx' = some open'' := by
    intro tx open' phase before same silent tx' open'' found answered
    obtain ⟨rfl, rfl⟩ | ⟨_, found⟩ := SignalTables.of_setPhase found
    · exact absurd answered silent
    · rwa [same] at found
  fun_cases SignalTables.step signalIdempotencyHash ttl tables action with
  | case2 | case7 | case8 | case15 => exact justified.mono (List.Subset.refl _) (moves rfl (by nofun))
  | case4 tx open' found phase =>
    fun_cases SignalTables.insertKey signalIdempotencyHash ttl tables tx open' with
    | case1 | case4 => exact justified.mono (List.Subset.refl _) (moves rfl (by nofun))
    | case2 => exact justified
    | case3 token _ _ conflict =>
      intro tx' open'' found' answered
      obtain ⟨rfl, rfl⟩ | ⟨_, found'⟩ := SignalTables.of_setPhase found'
      · obtain ⟨row, seen⟩ := of_conflict conflict
        have seen : (tables.keys (signalIdempotencyHash open'.call.idempotencyKey)).row = some row :=
          seen_of_ne (sound.begun found phase _) ▸ seen
        obtain ⟨delivery, member, keyed, rfl⟩ := sound.filed _ row seen
        have met : open'.now < delivery.expiresAt ∧
            delivery.call.workflowID = open'.call.workflowID ∧
            delivery.call.signalName = open'.call.signalName := by
          simpa [SignalTables.meets, found, seen, phase, token, Delivery.keyRow, and_assoc]
            using meets
        exact ⟨token, delivery, member, keyed, met.2.1, met.2.2, met.1⟩
      · exact justified tx' open'' found' answered
  | case11 _ reported =>
    exact justified.mono (subset_append_left _ _) (moves rfl (by cases reported <;> nofun))
  | _ => exact justified

variable (signalIdempotencyHash ttl)

/-- Within one lifetime of a token at most one signal is delivered under it. If in addition no call
meets a key that has expired or was written for another target, a call that answers that its signal
was already delivered is right: a call with this token has delivered this signal to this workflow,
and the token's lifetime is not over. Proof: by induction over the steps. A key row is there from
the delivery until it expires, and a call can claim the key only when it is not there. -/
theorem signal_tokens (actions : List (SignalAction Hash)) (tables : SignalTables Hash)
    (reached : tables = stateAfter (SignalTables.step signalIdempotencyHash ttl) {} actions)
    (distinct : ∀ tx open', tables.calls tx = some open' → ∀ delivery ∈ tables.deliveries,
      signalIdempotencyHash open'.call.idempotencyKey =
        signalIdempotencyHash delivery.call.idempotencyKey →
      open'.call.idempotencyKey = delivery.call.idempotencyKey) :
    (tables.deliveries.Pairwise fun earlier later =>
      earlier.call.idempotencyKey = later.call.idempotencyKey → earlier.call.idempotencyKey ≠ "" →
        earlier.expiresAt ≤ later.writtenAt) ∧
    (Allows (SignalTables.step signalIdempotencyHash ttl)
        (fun tables action => tables.meets signalIdempotencyHash action = true) {} actions →
      ∀ tx open', tables.calls tx = some open' → open'.phase = .returned .alreadyDelivered →
        ∃ delivery ∈ tables.deliveries,
          delivery.call.idempotencyKey = open'.call.idempotencyKey ∧
          delivery.call.workflowID = open'.call.workflowID ∧
          delivery.call.signalName = open'.call.signalName ∧
          open'.now < delivery.expiresAt) := by
  have initial : ({} : SignalTables Hash).Sound signalIdempotencyHash ttl :=
    ⟨nofun, nofun, nofun, nofun, List.Pairwise.nil⟩
  subst reached
  constructor
  · have sound := stateAfter_invariant (SignalTables.Sound signalIdempotencyHash ttl)
      (fun _ action sound => sound.step action) initial actions
    refine sound.spaced.imp fun {earlier later} apart same token => ?_
    exact apart _ ⟨token, rfl⟩ ⟨same ▸ token, by rw [same]⟩
  · intro allowed tx open' found answered
    obtain ⟨_, justified⟩ := allowed.invariant
      (fun tables => tables.Sound signalIdempotencyHash ttl ∧
        tables.Justified signalIdempotencyHash)
      (fun _ action meets held => ⟨held.1.step action, held.2.step held.1 meets⟩)
      ⟨initial, nofun⟩
    obtain ⟨token, delivery, member, keyed, rest⟩ := justified tx open' found answered
    exact ⟨delivery, member, (distinct tx open' found delivery member keyed.2.symm).symm, rest⟩

/-- One whole delivery. -/
def deliverWhole (tx : Nat) (call : SignalCall) : List (SignalAction String) :=
  [.begin' tx call, .insertKey tx, .deliver tx .ok, .commit tx true]

/-- A call that is repeated while its token lives. -/
theorem signal_tokens_repeated :
    ∃ tables, tables = stateAfter (SignalTables.step id 10) {}
        (deliverWhole 1 ⟨"w", "approve", "1", "t"⟩ ++
          [.tick 5, .begin' 2 ⟨"w", "approve", "1", "t"⟩, .insertKey 2]) ∧
      ∃ open', tables.calls 2 = some open' ∧ open'.phase = .returned .alreadyDelivered ∧
        ∃ delivery ∈ tables.deliveries, delivery.call.workflowID = open'.call.workflowID := by
  refine ⟨_, rfl, _, rfl, rfl, ?_⟩
  obtain ⟨delivery, member, _, same, _⟩ := (signal_tokens id 10
    (deliverWhole 1 ⟨"w", "approve", "1", "t"⟩ ++
      [.tick 5, .begin' 2 ⟨"w", "approve", "1", "t"⟩, .insertKey 2]) _ rfl
    (fun _ _ _ _ _ same => same)).2 (by decide +kernel) 2 _ rfl rfl
  exact ⟨delivery, member, same⟩

/-- A token is used again after its lifetime, and a token is used for another workflow. Both calls
answer that the signal was already delivered. -/
theorem already_delivered_untrue :
    (∃ tables, tables = stateAfter (SignalTables.step id 10) {}
        (deliverWhole 1 ⟨"w", "approve", "1", "t"⟩ ++
          [.tick 20, .begin' 2 ⟨"w", "approve", "1", "t"⟩, .insertKey 2]) ∧
      ∃ open', tables.calls 2 = some open' ∧ open'.phase = .returned .alreadyDelivered ∧
        ∀ delivery ∈ tables.deliveries, ¬ open'.now < delivery.expiresAt) ∧
    ∃ tables, tables = stateAfter (SignalTables.step id 10) {}
        (deliverWhole 1 ⟨"w", "approve", "1", "t"⟩ ++
          [.begin' 2 ⟨"v", "approve", "1", "t"⟩, .insertKey 2]) ∧
      ∃ open', tables.calls 2 = some open' ∧ open'.phase = .returned .alreadyDelivered ∧
        ∀ delivery ∈ tables.deliveries, delivery.call.workflowID ≠ open'.call.workflowID := by
  constructor
  · exact ⟨_, rfl, _, rfl, rfl, by decide +kernel⟩
  · exact ⟨_, rfl, _, rfl, rfl, by decide +kernel⟩

end Runs

end Cleat.Store
