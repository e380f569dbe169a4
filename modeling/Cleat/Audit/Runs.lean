import Cleat.Audit.Verification

/-!
# Runs of the audit log

Any number of processes record events, sweep and verify at the same time. A run is what the
database saw of them: each question with the tables before and after it, in any order that the
programs of the processes allow, from tables in which nothing has been chained yet.
-/
namespace Cleat.Audit

open Durable List Option AuditStore

section Alone

variable {platform : Platform} {tenant : UUID} {opts : VerifyOptions}

theorem every_ask (query : AuditQuery) (read : query.isRead = true) :
    (ask query).Every fun query => query.isRead = true :=
  ⟨read, fun _ => trivial⟩

theorem scanPages_reads (bound fuel : Nat) (scan : Scan) :
    (scanPages platform tenant bound fuel scan).Every fun query => query.isRead = true := by
  induction fuel generalizing scan with
  | zero => trivial
  | succ fuel ih =>
    refine (every_ask _ rfl).bind fun answer => ?_
    cases answer with
    | error reason => trivial
    | ok rows =>
      refine .ite trivial (.ite trivial (ih _))

theorem concludePass_reads (rep : ChainReport) (head : Option ChainHead) (scan : Scan)
    (found : Option ChainBreak) :
    (concludePass tenant rep head scan found).Every fun query => query.isRead = true := by
  have conclude : ∀ beyond,
      (concludeWith tenant rep head scan found beyond).Every fun query => query.isRead = true := by
    intro beyond
    cases beyond with
    | error reason => trivial
    | ok maxBeyond =>
      refine (every_ask _ rfl).bind fun again => ?_
      cases again with
      | error reason => trivial
      | ok head2 => exact .ite trivial trivial
  cases head with
  | none => exact conclude (.ok none)
  | some head => exact (every_ask _ rfl).bind conclude

/-- A verifier only reads. -/
theorem verifyOnce_reads :
    (verifyOnce platform tenant opts).Every fun query => query.isRead = true := by
  refine (every_ask _ rfl).bind fun first => ?_
  cases first with
  | error reason => trivial
  | ok head =>
    refine (every_ask _ rfl).bind fun counted => ?_
    cases counted with
    | error reason => trivial
    | ok unchained =>
      refine Program.Every.bind ?_ fun below => ?_
      · cases head with
        | none => trivial
        | some head =>
          refine .ite trivial ((every_ask _ rfl).bind fun below => ?_)
          cases below with
          | error reason => trivial
          | ok counted => exact .ite trivial trivial
      · split
        · trivial
        · trivial
        · split
          · trivial
          · refine (scanPages_reads _ _ _).bind fun scanned => ?_
            cases scanned with
            | error reason => trivial
            | ok result => exact concludePass_reads _ _ _ _

/-- The verification of tables that nobody changes. -/
def AuditStore.verify (platform : Platform) (store : AuditStore) (tenant : UUID)
    (opts : VerifyOptions) : Option (Except VerifyError ChainReport) :=
  ((verifyOnce platform tenant opts).drive (fun _ => store.read) []).2

/-- What is left of a log verifies from its floor to its head. -/
theorem Keeps.verifies {store : AuditStore} {log : List AuditRow} {floor : Nat}
    (keeps : Keeps platform store tenant log floor)
    (expired : ∀ head, store.heads tenant = some head → floorAge opts head = none) :
    ∃ report, store.verify platform tenant opts = some (.ok report) ∧
      report.chainBreak = none ∧ (store.chained tenant).map (·.seq) =
        (range' (report.floorSeq + 1) (report.headSeq - report.floorSeq)).map some := by
  have ends : (verifyOnce platform tenant opts).Amid Eq
      (fun s observed => s = store ∧ s.read observed.query = some observed.answer) store
      (PassEnds False tenant Eq store) :=
    verifyOnce_ends (fun _ _ shown => .inl shown.2) (fun _ _ same => same ▸ .refl _)
      Eq.trans (fun _ => rfl) (fun _ _ shown => shown.1 ▸ expired) keeps
  have answered : ∀ query, query.isRead = true →
      ∃ answer, store.read query = some answer ∧
        (store = store ∧ store.read query = some answer) := by
    intro query reads
    cases query with
    | ensureHead | append | sweep | retainUnchained => cases reads
    | readHead | firstLive | countUnchained | rowsUpTo | page | newestBeyond =>
      exact ⟨_, rfl, rfl, rfl⟩
  obtain ⟨result, returned, held⟩ := ends.drive answered verifyOnce_reads []
  have rows := (linked_append.mp
    ((take_append_drop floor log).symm ▸ keeps.linked)).2.seqs
  rw [Nat.zero_add, length_take_of_le keeps.within, length_drop] at rows
  cases result with
  | error reason =>
    cases reason with
    | database _ => exact held.elim
    | unfinished => exact held.elim
    | chainMoved =>
      obtain ⟨first, started, same, moved⟩ := held
      exact absurd (same ▸ rfl) moved
  | ok report =>
    obtain ⟨unbroken, _, first, rfl, headSeq, floorSeq⟩ := held
    refine ⟨report, returned, unbroken, ?_⟩
    rw [keeps.chained_eq, rows, headSeq, floorSeq]
    have described := keeps.head
    cases present : store.heads tenant with
    | none =>
      rw [present] at described
      obtain rfl : log = [] := described
      obtain rfl : floor = 0 := Nat.le_zero.mp keeps.within
      rfl
    | some head =>
      rw [present] at described
      obtain ⟨newest, _, floored, _⟩ := described
      simp only [map_some, getD_some, newest, floored]

end Alone

section Runs

/-- What a process does: it records one event in at most some attempts, sweeps a tenant or
verifies a tenant's chain. -/
inductive Work where
  | record (seen : Nat → Bool) (event : ChainEvent) (attempts : Nat)
  | retain (tenant : UUID) (cutoff : Int)
  | verify (tenant : UUID) (opts : VerifyOptions)

inductive Outcome where
  | recorded (kept : Bool)
  | retained (removed : Except String Nat)
  | verified (result : Except VerifyError ChainReport)
deriving DecidableEq

variable (platform : Platform)

def Work.program : Work → AuditProgram Outcome
  | .record seen event attempts => do return .recorded (← persist seen event 1 attempts)
  | .retain tenant cutoff => do return .retained (← retainTenant tenant cutoff)
  | .verify tenant opts => do return .verified (← verifyOnce platform tenant opts)

/-- A run of any number of processes on tables in which nothing is chained yet. Rows from before
the chain may be there. -/
structure AuditRun (Client : Type) [DecidableEq Client] where
  start : AuditStore
  unchained : ∀ row ∈ start.events, row.seq = none
  headless : ∀ tenant, start.heads tenant = none
  distinct : start.Distinct
  path : List (Served AuditQuery AuditAnswer Client AuditStore)
  valid : (auditWorld platform Client).Valid start path
  work : Client → Work
  outcome : Client → Option Outcome
  executes : ∀ client,
    ((work client).program platform).Runs (observedBy client path) (outcome client)

variable {platform} {Client : Type} [DecidableEq Client]

theorem AuditRun.keeps_start (run : AuditRun platform Client) (tenant : UUID) :
    Keeps platform run.start tenant [] 0 := by
  refine ⟨trivial, Nat.le_refl 0, ?_, ?_⟩
  · refine filter_eq_nil_iff.mpr fun row member => ?_
    simp [AuditRow.chainedFor, run.unchained row member]
  · rw [run.headless tenant]
    rfl

/-- In every state of a run no two rows have the same id and every tenant's rows are what is
left of a log. -/
theorem AuditRun.invariant (run : AuditRun platform Client) :
    ∀ served ∈ run.path,
      (served.before.Distinct ∧ ∀ tenant, ∃ log floor,
        Keeps platform served.before tenant log floor) ∧
      served.after.Distinct ∧ ∀ tenant, ∃ log floor,
        Keeps platform served.after tenant log floor := by
  refine run.valid.invariant
    (fun store => store.Distinct ∧ ∀ tenant, ∃ log floor, Keeps platform store tenant log floor)
    (fun _ _ moved => moved.elim) ?_ ⟨run.distinct, fun tenant => ⟨[], 0, run.keeps_start tenant⟩⟩
  intro served member known
  have change := Serves.change (run.valid.serves served member)
  refine ⟨change.distinct known.1, fun tenant => ?_⟩
  obtain ⟨log, floor, keeps⟩ := known.2 tenant
  obtain ⟨added, floor', _, keeps⟩ := change.grows log floor keeps
  exact ⟨log ++ added, floor', keeps⟩

end Runs

section Serial

/-- A database that answers every question at once, with a clock that stands still. -/
def AuditStore.serve (platform : Platform) (now : Int) (fresh : UUID) (store : AuditStore) :
    (query : AuditQuery) → AuditAnswer query × AuditStore
  | .ensureHead tenant => (.ok (), store.ensureHead tenant)
  | .append event =>
    match appendOnce platform store event now fresh with
    | .ok next => (.ok (), next)
    | .error reason => (.error reason, store)
  | .sweep tenant cutoff =>
    match sweep store tenant cutoff with
    | .ok (some result) => (.ok (some result.2), result.1)
    | .ok none => (.ok none, store)
    | .error reason => (.error reason, store)
  | .retainUnchained tenant cutoff =>
    (.ok (store.events.countP (·.expiredUnchained tenant cutoff)),
      store.retainUnchained tenant cutoff)
  | query => ((store.read query).getD (failure "" query), store)

theorem serve_serves (platform : Platform) (now : Int) (fresh : UUID) (store : AuditStore)
    (query : AuditQuery) :
    Serves platform store ⟨query, (store.serve platform now fresh query).1⟩
      (store.serve platform now fresh query).2 := by
  refine .inl ?_
  cases query with
  | ensureHead | retainUnchained => exact ⟨rfl, rfl⟩
  | append event =>
    refine ⟨now, fresh, ?_⟩
    cases made : appendOnce platform store event now fresh <;>
      simp [serve, made]
  | sweep tenant cutoff =>
    simp only [Commits, serve]
    cases sweep store tenant cutoff with
    | error reason => exact ⟨rfl, rfl⟩
    | ok result =>
      cases result with
      | none => exact ⟨rfl, rfl⟩
      | some result => exact ⟨rfl, rfl⟩
  | readHead | firstLive | countUnchained | rowsUpTo | page | newestBeyond => exact ⟨rfl, rfl⟩

/-- Tables without rows. -/
def emptyStore : AuditStore := ⟨[], fun _ => none⟩

/-- Processes one after the other, on tables without rows. -/
def AuditRun.serial (platform : Platform) (now : Int) (fresh : UUID) (works : List Work) :
    AuditRun platform Nat where
  start := emptyStore
  unchained := by simp [emptyStore]
  headless _ := rfl
  distinct := List.nodup_nil
  path := (Program.playAll (AuditStore.serve platform now fresh) 0
    (works.map (Work.program platform)) emptyStore).1
  valid := Program.playAll_valid (fun _ store query => serve_serves platform now fresh store query)
    0 _ _
  work client := works[client]?.getD (.record (fun _ => false) { tenantID := 0, id := 0 } 0)
  outcome client := some ((Program.playAll (AuditStore.serve platform now fresh) 0
    (works.map (Work.program platform)) emptyStore).2[client]?.getD (.recorded false))
  executes client := by
    have own : Work.program platform
        (works[client]?.getD (.record (fun _ => false) { tenantID := 0, id := 0 } 0)) =
        (works.map (Work.program platform))[client]?.getD (.done (.recorded false)) := by
      rw [List.getElem?_map]
      cases works[client]? <;> rfl
    rw [own]
    exact Program.playAll_executes _ _ _ client

/-- Surroundings in which every hash is the same. -/
def plainPlatform : Platform where
  sha256 _ := zeroHash
  uuidText _ := []
  timestampText _ := []
  canonicalJSON := some
  storeJSON := some

/-- An event is recorded, its row is swept and the chain is verified a hundred days after 1970,
for a retention of one day. The event is some seconds younger than a day, and the sweeper's clock
is some seconds ahead of the verifier's. -/
def sweptAround (younger ahead : Int) : List Work :=
  [.record (fun _ => false)
      { tenantID := 1, id := 7, ts := some ((99 * 86400 + younger) * 1000000000) } 2,
    .retain 1 ((99 * 86400 + ahead) * 1000000),
    .verify 1 { retentionDays := 1, now := 100 * 86400 * 1000000000 }]

end Serial

section Integrity

variable {platform : Platform} {Client : Type} [DecidableEq Client]

/-- At every moment of every run each tenant's stored chain verifies from its floor to its head,
its rows carry all the numbers in between, and no event id is stored twice.

Proof: each question leaves every tenant's rows the rest of a log that has grown, and a
verification of such tables alone ends without a break. -/
theorem audit_chains_verify (run : AuditRun platform Client) :
    ∀ served ∈ run.path, ∀ store, store = served.before ∨ store = served.after →
      (store.events.map (·.id)).Nodup ∧ ∀ tenant, ∃ report,
        store.verify platform tenant {} = some (.ok report) ∧ report.chainBreak = none ∧
          (store.chained tenant).map (·.seq) =
            (range' (report.floorSeq + 1) (report.headSeq - report.floorSeq)).map some := by
  intro served member store either
  have known : store.Distinct ∧ ∀ tenant, ∃ log floor, Keeps platform store tenant log floor := by
    obtain rfl | rfl := either
    · exact (run.invariant served member).1
    · exact (run.invariant served member).2
  refine ⟨known.1, fun tenant => ?_⟩
  obtain ⟨log, floor, keeps⟩ := known.2 tenant
  exact keeps.verifies fun head _ => by simp [floorAge, VerifyOptions.checksFloor]

theorem audit_chains_verify_swept :
    ∃ run : AuditRun plainPlatform Nat, (∃ served ∈ run.path, served.after.events ≠ []) ∧
      ∀ served ∈ run.path, ∀ tenant, ∃ report,
        served.after.verify plainPlatform tenant {} = some (.ok report) ∧
          report.chainBreak = none := by
  refine ⟨.serial plainPlatform 0 9 (sweptAround 100 300), by decide +kernel, ?_⟩
  intro served member tenant
  obtain ⟨_, verified⟩ := audit_chains_verify _ served member served.after (.inr rfl)
  obtain ⟨report, returned, unbroken, _⟩ := verified tenant
  exact ⟨report, returned, unbroken⟩

end Integrity

section Watching

variable {platform : Platform} {Client : Type} [DecidableEq Client] {store after : AuditStore}
  {tenant : UUID} {opts : VerifyOptions}

/-- Every row of the tenant's chain is dated after 1970, and the floor is old enough for the
verifier. -/
def Expired (opts : VerifyOptions) (tenant : UUID) (store : AuditStore) : Prop :=
  (∀ row ∈ store.events, row.chainedFor tenant → 0 < row.timestamp) ∧
    ∀ head, store.heads tenant = some head → floorAge opts head = none

/-- The cutoff of a sweep of a tenant. -/
def AuditQuery.cutoffFor (tenant : UUID) : AuditQuery → Option Int
  | .sweep other cutoff => if other = tenant then some cutoff else none
  | _ => none

theorem floorAge_of_old {head : ChainHead}
    (old : head.floorSeq = 0 ∨ 0 < head.floorTS ∧ head.floorTS * 1000 ≤ opts.window) :
    floorAge opts head = none := by
  unfold floorAge VerifyOptions.checksFloor
  split
  · rename_i checked
    obtain none_removed | ⟨positive, early⟩ := old
    · simp [none_removed] at checked
    · exact if_neg (by omega)
  · rfl

theorem AuditStore.chained_sorted (store : AuditStore) (tenant : UUID) :
    (store.chained tenant).Pairwise fun row other => row.seq.getD 0 ≤ other.seq.getD 0 := by
  have ordered : Std.Total fun row other : AuditRow => row.seq.getD 0 ≤ other.seq.getD 0 :=
    ⟨fun _ _ => Nat.le_total _ _⟩
  have transitive : IsTrans AuditRow fun row other => row.seq.getD 0 ≤ other.seq.getD 0 :=
    ⟨fun _ _ _ => Nat.le_trans⟩
  exact pairwise_insertionSort _ _

/-- The row of a new floor has expired. -/
theorem rowAt_expired {cutoff : Int} {floorSeq headSeq upTo : Nat} {row : AuditRow}
    (bound : upTo = expiredPrefixEnd (store.firstLive tenant floorSeq cutoff) floorSeq headSeq)
    (beyond : floorSeq < upTo) (found : store.rowAt tenant upTo = some row) :
    row.timestamp < cutoff ∧ row ∈ store.events ∧ row.chainedFor tenant = true := by
  have place : row.seq.getD 0 = upTo := by simpa using find?_some found
  have member := mem_of_find?_eq_some found
  have chained := mem_filter.mp ((mem_insertionSort _).mp member)
  refine ⟨?_, chained⟩
  by_contra live
  -- the first live row is then at or before this one, and the sweep stops below it
  have sorted := store.chained_sorted tenant
  cases first : (store.chained tenant).find? fun row =>
      row.seq.getD 0 > floorSeq && row.timestamp ≥ cutoff with
  | none =>
    have dead := find?_eq_none.mp first row member
    simp only [Bool.and_eq_true, decide_eq_true_eq, not_and] at dead
    exact dead (by omega) (by omega)
  | some other =>
    obtain ⟨is_live, before, rest, split, dead⟩ := find?_eq_some_iff_append.mp first
    have inside := mem_of_find?_eq_some first
    obtain ⟨_, numbered⟩ := mem_filter.mp ((mem_insertionSort _).mp inside)
    simp only [AuditRow.chainedFor, Bool.and_eq_true, isSome_iff_exists] at numbered
    obtain ⟨live_seq, numbered⟩ := numbered.2
    have at_or_before : live_seq ≤ upTo := by
      rw [split] at member sorted
      rcases mem_append.mp member with early | late
      · have none_live := dead row early
        simp at none_live
        omega
      · rcases mem_cons.mp late with rfl | later
        · rw [← place, numbered, getD_some]
        · have ahead := (pairwise_append.mp sorted).2.1
          have step := (pairwise_cons.mp ahead).1 row later
          rw [numbered, getD_some, place] at step
          exact step
    have above : floorSeq < live_seq := by
      simp only [Bool.and_eq_true, decide_eq_true_eq, numbered, getD_some] at is_live
      exact is_live.1
    have stops : store.firstLive tenant floorSeq cutoff = some live_seq := by
      rw [firstLive, first, bind_some, numbered]
    rw [stops, expiredPrefixEnd] at bound
    split at bound <;> omega

/-- A question keeps the floors old if its sweeps do and every row is dated after 1970. -/
theorem Change.expired {query : AuditQuery} (change : Change platform store query after)
    (dated : ∀ row ∈ after.events, row.chainedFor tenant → 0 < row.timestamp)
    (sweeps : ∀ cutoff ∈ query.cutoffFor tenant, cutoff * 1000 ≤ opts.window)
    (expired : Expired opts tenant store) : Expired opts tenant after := by
  refine ⟨dated, ?_⟩
  cases change with
  | none => exact expired.2
  | ensured =>
    intro head present
    obtain same | ⟨_, created⟩ := ensureHead_heads store tenant _
    · exact expired.2 head (same ▸ present)
    · rw [created] at present
      obtain rfl := some.inj present
      exact floorAge_of_old (.inl rfl)
  | @appended event now fresh after made =>
    obtain ⟨old, _, _, _, anchored, _, _, _, _, _, _, _, _, heads⟩ := appendOnce_extends made
    intro head present
    rw [heads] at present
    by_cases own : tenant = event.tenantID
    · subst own
      rw [Function.update_self] at present
      obtain rfl := some.inj present
      exact expired.2 old anchored
    · rw [Function.update_of_ne own] at present
      exact expired.2 head present
  | @swept other cutoff removed after made =>
    obtain ⟨old, upTo, row, rowHash, anchored, bound, beyond, found, _, rfl⟩ := sweep_removes made
    intro head present
    by_cases own : tenant = other
    · subst own
      simp only [withFloor, Function.update_self] at present
      obtain rfl := some.inj present
      obtain ⟨early, member, chained⟩ := rowAt_expired bound beyond found
      have positive := expired.1 row member chained
      have window := sweeps cutoff (if_pos rfl)
      exact floorAge_of_old (.inr ⟨positive, by dsimp only; omega⟩)
    · simp only [withFloor, Function.update_of_ne own] at present
      exact expired.2 head present
  | retained => exact expired.2

/-- A verification pass amid any number of appends and sweeps ends without a break or because
the head it has read first has moved, unless one of its reads failed. The floor's age is
checked if a retention period is given; then every sweep of the tenant must have run by a clock
no more than the allowed skew ahead of the verifier's, and every row must be dated after 1970.

Proof: what the pass reads is at every moment the rest of a log that only grows. -/
theorem verification_finds_no_break (run : AuditRun platform Client) (client : Client)
    (verifies : run.work client = .verify tenant opts)
    (clocks : opts.retentionDays > 0 → ∀ served ∈ run.path,
      (∀ cutoff ∈ served.observed.query.cutoffFor tenant, cutoff * 1000 ≤ opts.window) ∧
      ∀ row ∈ served.after.events, row.chainedFor tenant → 0 < row.timestamp) :
    ∀ result, run.outcome client = some (.verified result) →
      result = .error .chainMoved ∨
      (∃ report, result = .ok report ∧ report.chainBreak = none) ∨
      ∃ reason, result = .error (.database reason) ∧
        ∃ observed ∈ observedBy client run.path, Failed observed := by
  have old : ∀ served ∈ run.path, ∀ head, served.before.heads tenant = some head →
      floorAge opts head = none := by
    by_cases aged : opts.retentionDays > 0
    · have clocks := clocks aged
      have start : Expired opts tenant run.start := by
        refine ⟨fun row member chained => ?_, fun head present => ?_⟩
        · simp [AuditRow.chainedFor, run.unchained row member] at chained
        · rw [run.headless tenant] at present
          cases present
      have kept := run.valid.invariant (Expired opts tenant) (fun _ _ moved => moved.elim)
        (fun served member => (Serves.change (run.valid.serves served member)).expired
          (clocks served member).2 (clocks served member).1) start
      exact fun served member => (kept served member).1.2
    · intro served member head present
      have unchecked : opts.checksFloor (some head) = false := by
        simp [VerifyOptions.checksFloor, aged]
      rw [floorAge, unchecked]
      rfl
  have reads : ∀ observed ∈ observedBy client run.path, observed.query.isRead = true := by
    have every : ((run.work client).program platform).Every fun query => query.isRead = true := by
      rw [verifies]
      exact verifyOnce_reads.bind fun _ => trivial
    exact every.of_runs (run.executes client)
  have shown : ∀ served ∈ run.path, served.client = client →
      Shown (∃ observed ∈ observedBy client run.path, Failed observed) served.before
        served.observed ∧
      ∀ head, served.before.heads tenant = some head → floorAge opts head = none := by
    intro served member own
    have observed : served.observed ∈ observedBy client run.path :=
      mem_filterMap.mpr ⟨served, member, if_pos own⟩
    refine ⟨?_, old served member⟩
    have serves : Serves platform served.before served.observed served.after :=
      run.valid.serves served member
    exact (serves.shown (reads _ observed)).imp_right fun failed =>
      ⟨⟨served.observed, observed, failed.1⟩, failed.2⟩
  have passes : ((run.work client).program platform).Amid (Grows platform tenant)
      (fun s observed => Shown (∃ observed ∈ observedBy client run.path, Failed observed) s observed ∧
        ∀ head, s.heads tenant = some head → floorAge opts head = none) run.start
      (fun outcome last => ∀ result, outcome = .verified result →
        PassEnds (∃ observed ∈ observedBy client run.path, Failed observed) tenant
          (Grows platform tenant) run.start result last) := by
    rw [verifies]
    refine (Program.amid_bind _ _ _ _).mpr ((verifyOnce_ends (fun _ _ held => held.1)
      (fun _ _ => id) .trans .refl (fun _ _ held => held.2) (run.keeps_start tenant)).mono ?_)
    intro result last ends other same
    cases same
    exact ends
  intro result returned
  have runs := run.executes client
  rw [returned] at runs
  have still : ∀ {s t : AuditStore}, (auditWorld platform Client).Moves s t →
      Grows platform tenant s t := fun moved => moved.elim
  obtain ⟨last, ends⟩ := passes.of_path .refl .trans still
    (fun served member => (Serves.change (run.valid.serves served member)).grows) shown
    (.refl run.start) run.valid runs
  have ends := ends result rfl
  cases result with
  | error reason =>
    cases reason with
    | chainMoved => exact .inl rfl
    | unfinished => exact ends.elim
    | database reason => exact .inr (.inr ⟨reason, rfl, ends⟩)
  | ok report => exact .inr (.inl ⟨report, rfl, ends.1⟩)

/-- A sweeper whose clock is five minutes ahead is still believed. -/
theorem verification_finds_no_break_swept :
    ∃ run : AuditRun plainPlatform Nat, ∃ result, run.outcome 2 = some (.verified result) ∧
      (result = .error .chainMoved ∨
        (∃ report, result = .ok report ∧ report.chainBreak = none) ∨
        ∃ reason, result = .error (.database reason) ∧
          ∃ observed ∈ observedBy 2 run.path, Failed observed) := by
  have swept : (AuditRun.serial plainPlatform 0 9 (sweptAround 100 300)).outcome 2 =
      some (.verified (.ok
        { tenantID := 1, headSeq := 1, headHash := zeroHashHex, floorSeq := 1
          floorHash := zeroHashHex, floorAgeChecked := true })) := by
    decide +kernel
  exact ⟨_, _, swept, verification_finds_no_break _ 2 rfl (fun _ => by decide +kernel) _ swept⟩

/-- A sweeper whose clock is ten minutes ahead removes a row that the verifier takes for one
that had not expired, and the untouched chain is reported as broken. -/
theorem early_sweep_reported :
    ∃ run : AuditRun plainPlatform Nat, ∃ tenant opts report, run.work 2 = .verify tenant opts ∧
      run.outcome 2 = some (.verified (.ok report)) ∧
      report.chainBreak = some { seq := 1, kind := .floorUnexpired } := by
  have swept : (AuditRun.serial plainPlatform 0 9 (sweptAround 420 600)).outcome 2 =
      some (.verified (.ok
        { tenantID := 1, headSeq := 1, headHash := zeroHashHex, floorSeq := 1
          floorHash := zeroHashHex, floorAgeChecked := true
          chainBreak := some { seq := 1, kind := .floorUnexpired } })) := by
    decide +kernel
  exact ⟨_, 1, { retentionDays := 1, now := 100 * 86400 * 1000000000 }, _, rfl, swept, rfl⟩

end Watching

end Cleat.Audit
