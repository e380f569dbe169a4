import Cleat.Audit.Chain
import Cleat.Durable.World

/-!
# Writers, sweepers and the verifier of the audit log

Each of them is a program that asks the database: a writer's append and a sweep are one question
each, since they run under the head's lock, and the verifier reads the head, the pages of rows
and the head again in questions of their own. A question may fail, and a failed transaction may
have been committed with its acknowledgement lost.
-/
namespace Cleat.Audit

open Encoding Durable

/-- What the processes ask of the database. -/
inductive AuditQuery where
  | ensureHead (tenant : UUID)
  | append (event : ChainEvent)
  | sweep (tenant : UUID) (cutoff : Int)
  | retainUnchained (tenant : UUID) (cutoff : Int)
  | readHead (tenant : UUID)
  | firstLive (tenant : UUID) (floorSeq : Nat) (cutoff : Int)
  | countUnchained (tenant : UUID)
  | rowsUpTo (tenant : UUID) (seq : Nat)
  | page (tenant : UUID) (after bound limit : Nat)
  | newestBeyond (tenant : UUID) (seq : Nat)
deriving DecidableEq

/-- The answers: the count and the lowest sequence number of the rows up to one, the rows of a
page in order, the newest sequence number beyond one. -/
abbrev AuditAnswer : AuditQuery → Type
  | .ensureHead _ => Except String Unit
  | .append _ => Except AppendError Unit
  | .sweep _ _ => Except String (Option Nat)
  | .retainUnchained _ _ => Except String Nat
  | .readHead _ => Except String (Option ChainHead)
  | .firstLive _ _ _ => Except String (Option Nat)
  | .countUnchained _ => Except String Nat
  | .rowsUpTo _ _ => Except String (Nat × Option Nat)
  | .page _ _ _ _ => Except String (List AuditRow)
  | .newestBeyond _ _ => Except String (Option Nat)

abbrev AuditProgram := Program AuditQuery AuditAnswer

abbrev AuditObserved := Observation AuditQuery AuditAnswer

def ask (query : AuditQuery) : AuditProgram (AuditAnswer query) := Program.perform query

section Writing

/-- One attempt to append, with the head made sure of unless this process has seen it. A head
that has gone missing is created once more. -/
def appendChained (seen : Bool) (e : ChainEvent) : AuditProgram (Except AppendError Unit) := do
  let fitted := e.fitted
  let ensured ← if seen then pure (.ok ()) else ask (.ensureHead e.tenantID)
  match ensured with
  | .error reason => pure (.error (.database reason))
  | .ok _ =>
    let appended ← ask (.append fitted)
    match appended with
    | .error .headMissing =>
      let again ← ask (.ensureHead e.tenantID)
      match again with
      | .error reason => pure (.error (.database reason))
      | .ok _ => ask (.append fitted)
    | result => pure result

/-- The attempts of a queued event, as many as its deadline leaves room for. From the second on
they are retries. True stands for an event that was recorded. -/
def persist (seen : Nat → Bool) (e : ChainEvent) : Nat → Nat → AuditProgram Bool
  | _, 0 => pure false
  | attempt, left + 1 => do
      let result ← appendChained (seen attempt) { e with retry := attempt > 1 }
      match result with
      | .ok _ => pure true
      | .error .alreadyRecorded => pure true
      | .error _ => persist seen e (attempt + 1) left

end Writing

section Retaining

/-- A sweep of one tenant: a look without the lock, the transaction if there is something to
remove, and the rows from before the chain. -/
def retainTenant (tenant : UUID) (cutoff : Int) : AuditProgram (Except String Nat) := do
  let look ← ask (.readHead tenant)
  match look with
  | .error reason => pure (.error reason)
  | .ok none => ask (.retainUnchained tenant cutoff)
  | .ok (some head) =>
    let live ← ask (.firstLive tenant head.floorSeq cutoff)
    match live with
    | .error reason => pure (.error reason)
    | .ok live =>
      if expiredPrefixEnd live head.floorSeq head.seq ≤ head.floorSeq then
        ask (.retainUnchained tenant cutoff)
      else
        let swept ← ask (.sweep tenant cutoff)
        match swept with
        | .error reason => pure (.error reason)
        | .ok none => pure (.ok 0)
        | .ok (some removed) =>
          let unchained ← ask (.retainUnchained tenant cutoff)
          match unchained with
          | .error reason => pure (.error reason)
          | .ok more => pure (.ok (removed + more))

end Retaining

section Verifying

/-- The kinds of break, in the words an operator will search for. -/
inductive BreakKind where
  | edited | missing | relinked | truncatedTail | extraRows | headMissing | headMismatch
  | unreadable | rowsBelowFloor | floorUnexpired
deriving DecidableEq

/-- The first place where a chain fails to verify. -/
structure ChainBreak where
  seq : Nat
  id : UUID := nilUUID
  kind : BreakKind
deriving DecidableEq

structure ChainReport where
  tenantID : UUID
  checked : Nat := 0
  floorSeq : Nat := 0
  floorHash : Text := []
  headSeq : Nat := 0
  headHash : Text := []
  unchained : Nat := 0
  floorAgeChecked : Bool := false
  chainBreak : Option ChainBreak := none
deriving DecidableEq

/-- The retention period in days, and the verifier's clock in nanoseconds. -/
structure VerifyOptions where
  retentionDays : Int := 0
  now : Int := 0

inductive VerifyError where
  | chainMoved
  | database (reason : String)
  | unfinished
deriving DecidableEq

def verifyPageSize : Nat := 1000

def floorClockSkew : Int := 5 * 60 * 1000000000

def maxInt64 : Nat := 2 ^ 63 - 1

/-- The latest instant at which a removed row can have been made, in nanoseconds. -/
def VerifyOptions.window (opts : VerifyOptions) : Int :=
  opts.now - opts.retentionDays * (24 * 60 * 60 * 1000000000) + floorClockSkew

/-- The floor's age is checked. -/
def VerifyOptions.checksFloor (opts : VerifyOptions) (head : Option ChainHead) : Bool :=
  head.any (fun head => head.floorSeq > 0) && opts.retentionDays > 0

/-- The break of a floor over rows that had not expired. -/
def floorAge (opts : VerifyOptions) (head : ChainHead) : Option ChainBreak :=
  if opts.checksFloor (some head) then
    if head.floorTS ≤ 0 ∨ head.floorTS * 1000 > opts.window then
      some { seq := head.floorSeq, kind := .floorUnexpired }
    else none
  else none

/-- Where the scan is: what the next row is to be, and the last row that was verified. -/
structure Scan where
  expectSeq : Nat
  expectPrev : Text
  after : Nat
  checked : Nat := 0
  lastSeq : Nat := 0
  lastHash : Text := []

variable (platform : Platform)

/-- One row against what the chain expects next. -/
def checkRow (tenant : UUID) (scan : Scan) (row : AuditRow) : Except ChainBreak Scan :=
  let seq := row.seq.getD 0
  let prevHash := trimSpace (row.prevHash.getD [])
  let rowHash := trimSpace (row.rowHash.getD [])
  if seq ≠ scan.expectSeq then .error { seq := scan.expectSeq, id := row.id, kind := .missing }
  else if !equalFold prevHash scan.expectPrev then
    .error { seq, id := row.id, kind := .relinked }
  else
    match decodeDigest scan.expectPrev with
    | none => .error { seq, id := row.id, kind := .relinked }
    | some prev =>
      match chainHash platform prev (row.record tenant seq) with
      | .error _ => .error { seq, id := row.id, kind := .unreadable }
      | .ok sum =>
        if !equalFold (encodeHex sum.val) rowHash then
          .error { seq, id := row.id, kind := .edited }
        else
          .ok { expectSeq := scan.expectSeq + 1, expectPrev := toLower rowHash, after := seq
                checked := scan.checked + 1, lastSeq := seq, lastHash := rowHash }

/-- The rows of a page one after the other, up to the first break. -/
def checkRows (tenant : UUID) (scan : Scan) : List AuditRow → Scan × Option ChainBreak
  | [] => (scan, none)
  | row :: rest =>
    match checkRow platform tenant scan row with
    | .error broken => (scan, some broken)
    | .ok next => checkRows tenant next rest

/-- The pages up to a bound. A page that is not full is the last one. Each full page moves the
scan on, so the number of pages is bounded by the numbers that are left. -/
def scanPages (tenant : UUID) (bound : Nat) :
    Nat → Scan → AuditProgram (Except VerifyError (Scan × Option ChainBreak))
  | 0, _ => pure (.error .unfinished)
  | fuel + 1, scan => do
      let answer ← ask (.page tenant scan.after bound verifyPageSize)
      match answer with
      | .error reason => pure (.error (.database reason))
      | .ok rows =>
        let checked := checkRows platform tenant scan rows
        if checked.2.isSome then pure (.ok checked)
        else if rows.length < verifyPageSize then pure (.ok checked)
        else scanPages tenant bound fuel checked.1

/-- What the scan and the two readings of the head show, if the scan itself found no break. -/
def findingOf (head : Option ChainHead) (scan : Scan) (maxBeyond : Option Nat)
    (head2 : Option ChainHead) : Option ChainBreak :=
  match head with
  | none => if scan.checked > 0 then some { seq := scan.lastSeq, kind := .headMissing } else none
  | some head =>
    if scan.checked = 0 ∧ head.seq > head.floorSeq then
      some { seq := head.floorSeq + 1, kind := .truncatedTail }
    else if scan.checked > 0 ∧ scan.lastSeq < head.seq then
      some { seq := scan.lastSeq + 1, kind := .truncatedTail }
    else if maxBeyond.any (· > (head2.map (·.seq)).getD 0) then
      some { seq := (head2.map (·.seq)).getD 0 + 1, kind := .extraRows }
    else if scan.checked > 0 ∧ scan.lastHash ≠ trimSpace head.hash then
      some { seq := scan.lastSeq, kind := .headMismatch }
    else none

/-- A finding measured against a floor that has moved over it, or before there was a head, is
void. -/
def isVoid (head head2 : Option ChainHead) (finding : ChainBreak) : Bool :=
  match head, head2 with
  | some head, some head2 =>
    (head2.floorSeq ≠ head.floorSeq ||
      trimSpace head2.floorHash ≠ trimSpace head.floorHash) && finding.seq ≤ head2.floorSeq
  | none, some _ => true
  | _, none => false

/-- The end of a pass that has looked for rows beyond the head: the head is read again. -/
def concludeWith (tenant : UUID) (rep : ChainReport) (head : Option ChainHead) (scan : Scan)
    (found : Option ChainBreak) :
    Except String (Option Nat) → AuditProgram (Except VerifyError ChainReport)
  | .error reason => pure (.error (.database reason))
  | .ok maxBeyond => do
      let again ← ask (.readHead tenant)
      match again with
      | .error reason => pure (.error (.database reason))
      | .ok head2 =>
        let finding := found.or (findingOf head scan maxBeyond head2)
        if finding.any (isVoid head head2) then pure (.error .chainMoved)
        else pure (.ok { rep with checked := scan.checked, chainBreak := finding })

/-- The end of a pass. The newest row beyond the head is read before the head is read again. -/
def concludePass (tenant : UUID) (rep : ChainReport) (head : Option ChainHead) (scan : Scan)
    (found : Option ChainBreak) : AuditProgram (Except VerifyError ChainReport) :=
  match head with
  | none => concludeWith tenant rep none scan found (.ok none)
  | some read => ask (.newestBeyond tenant read.seq) >>= concludeWith tenant rep head scan found

/-- The scan of a pass, from the floor to the head that it has read. -/
def scanChain (tenant : UUID) (rep : ChainReport) (head : Option ChainHead) :
    AuditProgram (Except VerifyError ChainReport) := do
  let bound := (head.map (·.seq)).getD maxInt64
  let start : Scan := match head with
    | some head =>
      { expectSeq := head.floorSeq + 1, expectPrev := trimSpace head.floorHash
        after := head.floorSeq }
    | none => { expectSeq := 1, expectPrev := zeroHashHex, after := 0 }
  let scanned ← scanPages platform tenant bound (bound + 1) start
  match scanned with
  | .error reason => pure (.error reason)
  | .ok result => concludePass tenant rep head result.1 result.2

/-- The rows that survive at or below the floor. -/
def belowFloor (tenant : UUID) : Option ChainHead →
    AuditProgram (Except String (Option ChainBreak))
  | none => pure (.ok none)
  | some head =>
    if head.floorSeq = 0 then pure (.ok none)
    else do
      let below ← ask (.rowsUpTo tenant head.floorSeq)
      match below with
      | .error reason => pure (.error reason)
      | .ok (count, lowest) =>
        if count > 0 then pure (.ok (some { seq := lowest.getD 0, kind := .rowsBelowFloor }))
        else pure (.ok none)

/-- The report of a pass before its scan. -/
def openReport (tenant : UUID) (opts : VerifyOptions) (head : Option ChainHead) (unchained : Nat) :
    ChainReport :=
  let read := head.getD { seq := 0, hash := [], floorSeq := 0, floorHash := [], floorTS := 0 }
  { tenantID := tenant, floorSeq := read.floorSeq, floorHash := trimSpace read.floorHash
    headSeq := read.seq, headHash := trimSpace read.hash, unchained
    floorAgeChecked := opts.checksFloor head }

/-- One verification pass. -/
def verifyOnce (tenant : UUID) (opts : VerifyOptions) :
    AuditProgram (Except VerifyError ChainReport) := do
  let first ← ask (.readHead tenant)
  match first with
  | .error reason => pure (.error (.database reason))
  | .ok head =>
    let counted ← ask (.countUnchained tenant)
    match counted with
    | .error reason => pure (.error (.database reason))
    | .ok unchained =>
      let rep := openReport tenant opts head unchained
      let below ← belowFloor tenant head
      match below with
      | .error reason => pure (.error (.database reason))
      | .ok (some broken) => pure (.ok { rep with chainBreak := some broken })
      | .ok none =>
        match head.bind (floorAge opts) with
        | some broken => pure (.ok { rep with chainBreak := some broken })
        | none => scanChain platform tenant rep head

end Verifying

end Cleat.Audit
