import Cleat.Durable.Replay

/-!
# Accounts kept in blocks of rows

The usual way for rows to stand for a memo is in sequence: each answered call owns a
block of consecutive rows, and the call in progress may own an unfinished block at the
end. A `Ledger` says what a block and an unfinished block of each call look like and
proves three things about single calls: a call that finds its block ahead of it is
answered from it, a call that owns no rows is answered again without any, and a call at
the end of the rows writes its own. Every ledger is an account, so these facts about
single calls are all that is needed for runs.
-/
namespace Durable

open List

variable {Q : Type} {A : Q → Type} {Call Reply Row σ Seed V : Type}

/-- A call's block can be replayed, or its rows written, in two kinds of session:
`Ahead` has the given rows still to replay after the given number, and `Caught` has
replayed them all and continued. `Whole` is what the host requires of its rows. No block
lowers the rank of the view. -/
structure Ledger (host : Host Q A Call Reply Row σ Seed) (V : Type) where
  view : σ → V
  Allowed : Option Reply → Call → σ → List (Observation Q A) → Prop
  Quiet : V → Call → V → List (Observation Q A) → Prop
  Fresh : List Row → V → Call → List (Observation Q A) → Prop
  Idle : List (Observation Q A) → Prop
  initial : V
  rank : V → Nat
  Whole : List Row → Prop
  Ahead : σ → Nat → List Row → Prop
  Caught : σ → Nat → Prop
  Block : V → Call → Reply → Bool → List Row → V → Prop
  Tail : V → Call → List Row → Prop
  rises : ∀ before call reply recorded block after,
    Block before call reply recorded block after → rank before ≤ rank after
  ahead_active : ∀ session count rows, Ahead session count rows → host.parked session = false
  caught_active : ∀ session count, Caught session count → host.parked session = false
  empty : Whole []
  load : ∀ seed rows, Whole rows → view (host.load seed rows) = initial ∧
    (Ahead (host.load seed rows) 0 rows ∨ rows = [] ∧ Caught (host.load seed rows) 0)
  replay : ∀ earlier block later before call reply recorded after known session trace outcome,
    Whole (earlier ++ (block ++ later)) → Block before call reply recorded block after →
    Ahead session earlier.length (block ++ later) → view session = before →
    (known = some reply ∨ known = none ∧ recorded = true) →
    Allowed known call session trace → (host.execute call session).Runs trace outcome →
    host.writeAll (earlier ++ (block ++ later)) trace = earlier ++ (block ++ later) ∧
      Quiet before call after trace ∧
      ∀ reply' session', outcome = some (reply', session') →
        reply' = reply ∧ host.suspends reply' = false ∧ view session' = after ∧
          (Ahead session' (earlier.length + block.length) later ∨
            later = [] ∧ Caught session' (earlier.length + block.length))
  idle : ∀ rows before call reply recorded after known session trace outcome,
    Whole rows → Block before call reply recorded [] after → Caught session rows.length →
    view session = before → (known = some reply ∨ known = none ∧ recorded = true) →
    Allowed known call session trace → (host.execute call session).Runs trace outcome →
    host.writeAll rows trace = rows ∧ Quiet before call after trace ∧
      ∀ reply' session', outcome = some (reply', session') →
        reply' = reply ∧ host.suspends reply' = false ∧ view session' = after ∧
          Caught session' rows.length
  frontier : ∀ rows tail before call session trace outcome,
    Whole (rows ++ tail) → view session = before →
    (Ahead session rows.length tail ∨ tail = [] ∧ Caught session rows.length) →
    (tail = [] ∨ Tail before call tail) → Allowed none call session trace →
    (host.execute call session).Runs trace outcome →
    Fresh (rows ++ tail) before call trace ∧
      ∃ written, host.writeAll (rows ++ tail) trace = rows ++ written ∧ Whole (rows ++ written) ∧
        match host.answered outcome with
        | some (reply, session') =>
          (∃ recorded, Block before call reply recorded written (view session')) ∧
            (Ahead session' (rows ++ written).length [] ∨ Caught session' (rows ++ written).length)
        | none =>
          ((written = [] ∨ Tail before call written) ∨
            ∃ reply after, Block before call reply true written after) ∧
          ∀ reply session', host.returned outcome = some (reply, session') →
            ∀ known next later ending, Allowed known next session' later →
              (host.execute next session').Runs later ending →
              Idle later ∧ host.Halts later ending

namespace Ledger

variable {host : Host Q A Call Reply Row σ Seed} (ledger : Ledger host V)

/-- The entries of a memo own these blocks, each starting from its predecessor's view. -/
def Chain : V → List (Entry Call Reply V) → List (List Row) → Prop
  | _, [], [] => True
  | before, entry :: memo, block :: blocks =>
    ledger.Block before entry.call entry.reply entry.recorded block entry.view ∧
      Chain entry.view memo blocks
  | _, _, _ => False

variable {before : V} {rest past : List (Entry Call Reply V)} {blocks : List (List Row)}
  {guest : Guest Call Reply} {rows : List Row} {session : σ} {entry : Entry Call Reply V}
  {trace : List (Observation Q A)} {outcome : Option (Reply × σ)}

/-- Chains compose: the second starts from the view the first ends with. -/
theorem Chain.append {memo : List (Entry Call Reply V)} {more : List (List Row)}
    (first : ledger.Chain before memo blocks)
    (second : ledger.Chain (lastView before memo) rest more) :
    ledger.Chain before (memo ++ rest) (blocks ++ more) := by
  induction memo generalizing before blocks with
  | nil =>
    cases blocks with
    | nil => exact second
    | cons block blocks => exact first.elim
  | cons entry memo ih =>
    cases blocks with
    | nil => exact first.elim
    | cons block blocks => exact ⟨first.1, ih first.2 second⟩

/-- The rows after a memo are either absent or belong to the guest's next call. -/
def Pending (guest : Guest Call Reply) (memo : List (Entry Call Reply V)) (tail : List Row) :
    Prop :=
  tail = [] ∨ ∃ call, guest (memo.map Entry.reply) = some call ∧
    ledger.Tail (lastView ledger.initial memo) call tail

/-- The rows stand for this memo. -/
def Explains (guest : Guest Call Reply) (rows : List Row)
    (memo : List (Entry Call Reply V)) : Prop :=
  ledger.Whole rows ∧ ∃ blocks tail, ledger.Chain ledger.initial memo blocks ∧
    rows = blocks.flatten ++ tail ∧ ledger.Pending guest memo tail

/-- A session that has been given the replies of `past` and has the rows of `rest`, and
of a call in progress, in front of it. -/
def At (guest : Guest Call Reply) (rows : List Row) (past rest : List (Entry Call Reply V))
    (session : σ) : Prop :=
  ledger.Whole rows ∧ ∃ blocks ahead tail, ledger.Chain ledger.initial past blocks ∧
    ledger.Chain (lastView ledger.initial past) rest ahead ∧
    rows = blocks.flatten ++ (ahead.flatten ++ tail) ∧
    ledger.Pending guest (past ++ rest) tail ∧
    ledger.view session = lastView ledger.initial past ∧
    (ledger.Ahead session blocks.flatten.length (ahead.flatten ++ tail) ∨
      ahead.flatten ++ tail = [] ∧ ledger.Caught session blocks.flatten.length)

theorem At.explains (standing : ledger.At guest rows past rest session) :
    ledger.Explains guest rows (past ++ rest) := by
  obtain ⟨whole, blocks, ahead, tail, first, second, split, pending, _, _⟩ := standing
  refine ⟨whole, blocks ++ ahead, tail, first.append _ second, ?_, pending⟩
  rw [split, flatten_append, append_assoc]

/-- What a call answered from the memo leaves behind. -/
def Repeated (guest : Guest Call Reply) (rows : List Row) (past rest : List (Entry Call Reply V))
    (entry : Entry Call Reply V) (trace : List (Observation Q A))
    (outcome : Option (Reply × σ)) : Prop :=
  host.writeAll rows trace = rows ∧
    ledger.Quiet (lastView ledger.initial past) entry.call entry.view trace ∧
    ∀ reply session, outcome = some (reply, session) →
      reply = entry.reply ∧ host.suspends reply = false ∧ host.parked session = false ∧
        ledger.view session = entry.view ∧ ledger.At guest rows (past ++ [entry]) rest session

/-- A session in front of an entry is moved past it by the entry's call.

Proof: the entry's block is the first of those ahead. If the session has rows left, it
replays the block; if it has none, the block is empty and the call is idle. -/
theorem At.repeated {known : Option Reply}
    (standing : ledger.At guest rows past (entry :: rest) session)
    (expected : known = some entry.reply ∨ known = none ∧ entry.recorded = true)
    (permitted : ledger.Allowed known entry.call session trace)
    (runs : (host.execute entry.call session).Runs trace outcome) :
    ledger.Repeated guest rows past rest entry trace outcome := by
  obtain ⟨whole, blocks, ahead, tail, first, second, rfl, pending, viewed, place⟩ := standing
  cases ahead with
  | nil => exact second.elim
  | cons block ahead =>
    have regrouped : past ++ entry :: rest = (past ++ [entry]) ++ rest := by simp
    have owned : ledger.Chain ledger.initial (past ++ [entry]) (blocks ++ [block]) :=
      first.append _ ⟨second.1, trivial⟩
    have flat : (blocks ++ [block]).flatten = blocks.flatten ++ block := by simp
    have counted : (blocks ++ [block]).flatten.length =
        blocks.flatten.length + block.length := by
      rw [flat, length_append]
    have split : blocks.flatten ++ ((block :: ahead).flatten ++ tail) =
        (blocks ++ [block]).flatten ++ (ahead.flatten ++ tail) := by
      simp [append_assoc]
    have moved : ∀ after, ledger.view after = entry.view →
        (ledger.Ahead after (blocks ++ [block]).flatten.length (ahead.flatten ++ tail) ∨
          ahead.flatten ++ tail = [] ∧ ledger.Caught after (blocks ++ [block]).flatten.length) →
        ledger.At guest (blocks.flatten ++ ((block :: ahead).flatten ++ tail))
          (past ++ [entry]) rest after := by
      intro after seen stands
      refine ⟨whole, blocks ++ [block], ahead, tail, owned, ?_, split, regrouped ▸ pending, ?_,
        stands⟩
      · simpa using second.2
      · simpa using seen
    rw [flatten_cons, append_assoc] at whole place
    rcases place with replaying | ⟨nothing, caught⟩
    · obtain ⟨unchanged, quiet, answers⟩ :=
        ledger.replay _ _ _ _ _ _ _ _ _ _ _ _ whole second.1 replaying viewed expected permitted
          runs
      refine ⟨by simpa [append_assoc] using unchanged, quiet, ?_⟩
      intro reply after given
      obtain ⟨same, resumes, seen, stands⟩ := answers reply after given
      have active : host.parked after = false := by
        rcases stands with ahead | ⟨_, caught⟩
        · exact ledger.ahead_active _ _ _ ahead
        · exact ledger.caught_active _ _ caught
      exact ⟨same, resumes, active, seen, moved after seen (by rwa [counted])⟩
    · obtain ⟨vacant, rest_vacant⟩ := append_eq_nil_iff.mp nothing
      rw [nothing, append_nil] at whole
      have owns := second.1
      rw [vacant] at owns
      obtain ⟨unchanged, quiet, answers⟩ :=
        ledger.idle _ _ _ _ _ _ _ _ _ _ whole owns caught viewed expected permitted runs
      have rowsSame : blocks.flatten ++ ((block :: ahead).flatten ++ tail) = blocks.flatten := by
        rw [flatten_cons, append_assoc, nothing, append_nil]
      refine ⟨by rw [rowsSame]; exact unchanged, quiet, ?_⟩
      intro reply after given
      obtain ⟨same, resumes, seen, stands⟩ := answers reply after given
      refine ⟨same, resumes, ledger.caught_active _ _ stands, seen, moved after seen (.inr ⟨rest_vacant, ?_⟩)⟩
      rw [counted, vacant]
      exact stands

/-- A memo and its chain extended by one entry and the block it owns. -/
theorem Chain.snoc {block : List Row} (owned : ledger.Chain ledger.initial past blocks)
    (owns : ledger.Block (lastView ledger.initial past) entry.call entry.reply entry.recorded block
      entry.view) : ledger.Chain ledger.initial (past ++ [entry]) (blocks ++ [block]) :=
  owned.append _ ⟨owns, trivial⟩

/-- A session at the end of the memo extends it or leaves the next call in progress.

Proof: the rows split into the memo's blocks and the unfinished block of the guest's
next call, which the call either completes or leaves unfinished again. -/
theorem At.extended {call : Call} (standing : ledger.At guest rows past [] session)
    (next : guest (past.map Entry.reply) = some call)
    (permitted : ledger.Allowed none call session trace)
    (runs : (host.execute call session).Runs trace outcome) :
    ledger.Fresh rows (lastView ledger.initial past) call trace ∧
      match host.answered outcome with
      | some (reply, after) =>
        ∃ recorded, ledger.Explains guest (host.writeAll rows trace)
            (past ++ [⟨call, reply, ledger.view after, recorded⟩]) ∧
          ledger.At guest (host.writeAll rows trace)
            (past ++ [⟨call, reply, ledger.view after, recorded⟩]) [] after
      | none =>
        (ledger.Explains guest (host.writeAll rows trace) past ∨
          ∃ entry, entry.call = call ∧ entry.recorded = true ∧
            ledger.Explains guest (host.writeAll rows trace) (past ++ [entry])) ∧
        ∀ reply after, host.returned outcome = some (reply, after) →
          ∀ known next later ending, ledger.Allowed known next after later →
            (host.execute next after).Runs later ending →
            ledger.Idle later ∧ host.Halts later ending := by
  obtain ⟨whole, blocks, ahead, tail, owned, second, rfl, pending, viewed, place⟩ := standing
  have vacant : ahead = [] := by
    cases ahead with
    | nil => rfl
    | cons block ahead => exact second.elim
  subst vacant
  rw [append_nil] at pending
  have begun : tail = [] ∨ ledger.Tail (lastView ledger.initial past) call tail := by
    rcases pending with none_ | ⟨other, same, unfinished⟩
    · exact .inl none_
    · cases next.symm.trans same
      exact .inr unfinished
  obtain ⟨fresh, written, wrote, wholeAfter, done⟩ :=
    ledger.frontier _ _ _ _ _ _ _ whole viewed place begun permitted runs
  refine ⟨fresh, ?_⟩
  rw [wrote]
  have finished : ∀ entry : Entry Call Reply V, entry.call = call →
      ledger.Block (lastView ledger.initial past) entry.call entry.reply entry.recorded written
        entry.view →
      ledger.Explains guest (blocks.flatten ++ written) (past ++ [entry]) := by
    intro entry _ owns
    exact ⟨wholeAfter, blocks ++ [written], [], owned.snoc _ owns, by simp, .inl rfl⟩
  cases answered : host.answered outcome with
  | some pair =>
    obtain ⟨reply, after⟩ := pair
    simp only [answered] at done
    obtain ⟨⟨recorded, owns⟩, stands⟩ := done
    refine ⟨recorded, finished _ rfl owns, wholeAfter, blocks ++ [written], [], [],
      owned.snoc _ owns, trivial, by simp, .inl rfl, by simp, ?_⟩
    simpa using stands
  | none =>
    simp only [answered] at done
    obtain ⟨left, stops⟩ := done
    refine ⟨?_, stops⟩
    rcases left with unfinished | ⟨reply, after, owns⟩
    · refine .inl ⟨wholeAfter, blocks, written, owned, rfl, ?_⟩
      exact unfinished.imp_right fun begun => ⟨call, next, begun⟩
    · exact .inr ⟨⟨call, reply, after, true⟩, rfl, rfl, finished _ rfl owns⟩

/-- An entry's view ranks no lower than its predecessor's. -/
theorem Chain.rises (owned : ledger.Chain before (past ++ entry :: rest) blocks) :
    ledger.rank (lastView before past) ≤ ledger.rank entry.view := by
  induction past generalizing before blocks with
  | nil =>
    cases blocks with
    | nil => exact owned.elim
    | cons block blocks => exact ledger.rises _ _ _ _ _ _ owned.1
  | cons first past ih =>
    cases blocks with
    | nil => exact owned.elim
    | cons block blocks => exact ih owned.2

/-- Every ledger is an account of its host. -/
def toAccount (guest : Guest Call Reply) : Account host guest V where
  view := ledger.view
  initial := ledger.initial
  rank := ledger.rank
  Allowed := ledger.Allowed
  Quiet := ledger.Quiet
  Fresh := fun rows memo => ledger.Fresh rows (lastView ledger.initial memo)
  Idle := ledger.Idle
  Explains := ledger.Explains guest
  At := ledger.At guest
  seen := by
    rintro rows past rest session ⟨_, _, _, _, _, _, _, _, viewed, _⟩
    exact viewed
  active := by
    rintro rows past rest session ⟨_, _, _, _, _, _, _, _, _, ahead | ⟨_, caught⟩⟩
    · exact ledger.ahead_active _ _ _ ahead
    · exact ledger.caught_active _ _ caught
  rises := by
    rintro rows past entry rest ⟨_, blocks, tail, owned, _, _⟩
    exact owned.rises ledger
  start := ⟨ledger.empty, [], [], trivial, rfl, .inl rfl⟩
  load := by
    rintro seed rows memo ⟨whole, blocks, tail, owned, rfl, pending⟩
    obtain ⟨viewed, place⟩ := ledger.load seed _ whole
    exact ⟨whole, [], blocks, tail, trivial, owned, rfl, pending, viewed, place⟩
  replay := by
    intro rows past entry rest known session trace outcome _ standing expected permitted runs
    obtain ⟨unchanged, quiet, answers⟩ := standing.repeated ledger expected permitted runs
    have viewed : ledger.view session = lastView ledger.initial past := by
      obtain ⟨_, _, _, _, _, _, _, _, viewed, _⟩ := standing
      exact viewed
    rw [unchanged, viewed]
    exact ⟨standing.explains, quiet, answers⟩
  frontier := by
    intro rows past call session trace outcome _ standing next permitted runs
    exact standing.extended ledger next permitted runs

end Ledger

end Durable
