import Cleat.Audit.Verify
import Cleat.Durable.Numbered

/-!
# The audit log's tables over whole runs

Behind the rows that a tenant has at any moment stands the whole log: every row that was ever
chained, in order. The stored rows are what retention has left of it, the head describes its
end, and the floor the last row that is gone. An append extends the log, a sweep moves the
floor, and nothing else touches either. What the verifier sees of a tenant at any moment follows
from the log and the floor.
-/
namespace Cleat.Audit

open Encoding Durable List Function AuditStore AuditRow

section Database

/-- What the tables answer to a read. -/
def AuditStore.read (store : AuditStore) : (query : AuditQuery) → Option (AuditAnswer query)
  | .readHead tenant => some (.ok (store.heads tenant))
  | .firstLive tenant floorSeq cutoff => some (.ok (store.firstLive tenant floorSeq cutoff))
  | .countUnchained tenant =>
    some (.ok (store.events.countP fun row => row.tenantID = tenant && row.seq.isNone))
  | .rowsUpTo tenant seq =>
    let rows := (store.chained tenant).filter fun row => row.seq.getD 0 ≤ seq
    some (.ok (rows.length, rows.head?.bind (·.seq)))
  | .page tenant after bound limit =>
    some (.ok (((store.chained tenant).filter fun row =>
      after < row.seq.getD 0 && row.seq.getD 0 ≤ bound).take limit))
  | .newestBeyond tenant seq =>
    some (.ok (((store.chained tenant).filter fun row =>
      seq < row.seq.getD 0).getLast?.bind (·.seq)))
  | .ensureHead _ | .append _ | .sweep _ _ | .retainUnchained _ _ => none

/-- A question that failed. -/
def failure (reason : String) : (query : AuditQuery) → AuditAnswer query
  | .append _ => .error (.database reason)
  | .ensureHead _ | .sweep _ _ | .retainUnchained _ _ | .readHead _ | .firstLive _ _ _
  | .countUnchained _ | .rowsUpTo _ _ | .page _ _ _ _ | .newestBeyond _ _ => .error reason

variable (platform : Platform)

/-- What the transaction of a question can do: the answer of a success and the tables after
it. An append takes its time and a fresh id from the process that makes it. -/
def Commits (store : AuditStore) : (query : AuditQuery) → AuditAnswer query → AuditStore → Prop
  | .ensureHead tenant, answer, after => answer = .ok () ∧ after = store.ensureHead tenant
  | .append event, answer, after => ∃ now fresh,
      match appendOnce platform store event now fresh with
      | .ok next => answer = .ok () ∧ after = next
      | .error reason => answer = .error reason ∧ after = store
  | .sweep tenant cutoff, answer, after =>
    match sweep store tenant cutoff with
    | .ok (some result) => answer = .ok (some result.2) ∧ after = result.1
    | .ok none => answer = .ok none ∧ after = store
    | .error reason => answer = .error reason ∧ after = store
  | .retainUnchained tenant cutoff, answer, after =>
    answer = .ok (store.events.countP (·.expiredUnchained tenant cutoff)) ∧
      after = store.retainUnchained tenant cutoff
  | query, answer, after => store.read query = some answer ∧ after = store

/-- A question is answered, or it fails: before anything was done, or after the commit. -/
def Serves (store : AuditStore) (observed : AuditObserved) (after : AuditStore) : Prop :=
  Commits platform store observed.query observed.answer after ∨
    ∃ reason, observed.answer = failure reason observed.query ∧
      (after = store ∨ ∃ answer, Commits platform store observed.query answer after)

/-- The database with any number of processes. -/
def auditWorld (Client : Type) : World AuditQuery AuditAnswer Client AuditStore where
  Serves _ := Serves platform
  Moves _ _ := False

/-- What a question can do to the tables. -/
inductive Change (store : AuditStore) : AuditQuery → AuditStore → Prop
  | none {query : AuditQuery} : Change store query store
  | ensured {tenant : UUID} : Change store (.ensureHead tenant) (store.ensureHead tenant)
  | appended {event : ChainEvent} {now : Int} {fresh : UUID} {after : AuditStore}
      (made : appendOnce platform store event now fresh = .ok after) :
      Change store (.append event) after
  | swept {tenant : UUID} {cutoff : Int} {removed : Nat} {after : AuditStore}
      (made : sweep store tenant cutoff = .ok (some (after, removed))) :
      Change store (.sweep tenant cutoff) after
  | retained {tenant : UUID} {cutoff : Int} :
      Change store (.retainUnchained tenant cutoff) (store.retainUnchained tenant cutoff)

variable {platform} {store after : AuditStore} {query : AuditQuery} {answer : AuditAnswer query}

theorem Commits.change (commits : Commits platform store query answer after) :
    Change platform store query after := by
  cases query with
  | ensureHead tenant => exact commits.2 ▸ .ensured
  | append event =>
    obtain ⟨now, fresh, commits⟩ := commits
    cases made : appendOnce platform store event now fresh with
    | ok next =>
      rw [made] at commits
      exact .appended (commits.2 ▸ made)
    | error reason =>
      rw [made] at commits
      exact commits.2 ▸ .none
  | sweep tenant cutoff =>
    simp only [Commits] at commits
    split at commits
    · rename_i result made
      obtain ⟨_, rfl⟩ := commits
      exact .swept made
    · exact commits.2 ▸ .none
    · exact commits.2 ▸ .none
  | retainUnchained tenant cutoff => exact commits.2 ▸ .retained
  | readHead | firstLive | countUnchained | rowsUpTo | page | newestBeyond =>
    exact commits.2 ▸ .none

theorem Serves.change {observed : AuditObserved} (serves : Serves platform store observed after) :
    Change platform store observed.query after := by
  obtain commits | ⟨reason, _, unchanged | ⟨answer, commits⟩⟩ := serves
  · exact commits.change
  · exact unchanged ▸ .none
  · exact commits.change

/-- The answer says that the question failed. -/
def Failed (observed : AuditObserved) : Prop :=
  ∃ reason, observed.answer = failure reason observed.query

/-- The answer to a read shows the tables, or it is a failure where there can be one. -/
def Shown (fails : Prop) (store : AuditStore) (observed : AuditObserved) : Prop :=
  store.read observed.query = some observed.answer ∨ fails ∧ Failed observed

/-- A question that only reads. -/
def AuditQuery.isRead : AuditQuery → Bool
  | .readHead _ | .firstLive _ _ _ | .countUnchained _ | .rowsUpTo _ _ | .page _ _ _ _
  | .newestBeyond _ _ => true
  | .ensureHead _ | .append _ | .sweep _ _ | .retainUnchained _ _ => false

theorem Serves.shown (serves : Serves platform store ⟨query, answer⟩ after)
    (reads : query.isRead = true) : Shown (Failed ⟨query, answer⟩) store ⟨query, answer⟩ := by
  obtain commits | ⟨reason, failed, _⟩ := serves
  · cases query with
    | ensureHead | append | sweep | retainUnchained => cases reads
    | readHead | firstLive | countUnchained | rowsUpTo | page | newestBeyond =>
      exact .inl commits.1
  · exact .inr ⟨⟨reason, failed⟩, reason, failed⟩

end Database

section Log

variable (platform : Platform) (tenant : UUID)

/-- The rows continue a chain: the hash and the number of the row before them are given. -/
def Linked : Digest → Nat → List AuditRow → Prop
  | _, _, [] => True
  | prev, last, row :: rest =>
    row.tenantID = tenant ∧ row.seq = some (last + 1) ∧
      row.prevHash = some (encodeHex prev.val) ∧
      ∃ sum, chainHash platform prev (row.record tenant (last + 1)) = .ok sum ∧
        row.rowHash = some (encodeHex sum.val) ∧ Linked sum (last + 1) rest

/-- The hash at the end of rows. -/
def tipOf : Digest → List AuditRow → Digest
  | prev, [] => prev
  | prev, row :: rest => tipOf ((row.rowHash.bind decodeDigest).getD prev) rest

variable {platform} {tenant} {prev : Digest} {last : Nat} {rows more : List AuditRow}

theorem tipOf_append : tipOf prev (rows ++ more) = tipOf (tipOf prev rows) more := by
  induction rows generalizing prev with
  | nil => rfl
  | cons row rest ih => exact ih

theorem linked_append :
    Linked platform tenant prev last (rows ++ more) ↔
      Linked platform tenant prev last rows ∧
        Linked platform tenant (tipOf prev rows) (last + rows.length) more := by
  induction rows generalizing prev last with
  | nil => simp [Linked, tipOf]
  | cons row rest ih =>
    have place : last + (row :: rest).length = last + 1 + rest.length := by
      rw [length_cons]
      omega
    have tip : ∀ sum, row.rowHash = some (encodeHex sum.val) →
        tipOf prev (row :: rest) = tipOf sum rest := by
      intro sum hash
      simp [tipOf, hash]
    simp only [cons_append, Linked, ih, place]
    constructor
    · rintro ⟨own, seq, link, sum, hashed, hash, before, after⟩
      exact ⟨⟨own, seq, link, sum, hashed, hash, before⟩, tip sum hash ▸ after⟩
    · rintro ⟨⟨own, seq, link, sum, hashed, hash, before⟩, after⟩
      exact ⟨own, seq, link, sum, hashed, hash, before, tip sum hash ▸ after⟩

theorem Linked.numbered (linked : Linked platform tenant prev last rows) :
    Numbered (fun row : AuditRow => row.seq.getD 0) last rows := by
  induction rows generalizing prev last with
  | nil => trivial
  | cons row rest ih =>
    obtain ⟨_, seq, _, sum, _, _, linked⟩ := linked
    exact ⟨by simp [seq], ih linked⟩

theorem Linked.seqs (linked : Linked platform tenant prev last rows) :
    rows.map (·.seq) = (range' (last + 1) rows.length).map some := by
  induction rows generalizing prev last with
  | nil => rfl
  | cons row rest ih =>
    obtain ⟨_, seq, _, sum, _, _, linked⟩ := linked
    rw [map_cons, length_cons, range'_succ, map_cons, seq, ih linked]

/-- The head row of a log of which the rows up to a floor are gone. A log without a head is
empty. -/
def Describes (log : List AuditRow) (floor : Nat) : Option ChainHead → Prop
  | none => log = []
  | some head => head.seq = log.length ∧ head.hash = encodeHex (tipOf zeroHash log).val ∧
      head.floorSeq = floor ∧ head.floorHash = encodeHex (tipOf zeroHash (log.take floor)).val

/-- The hash of a row of a chain is the hash at its place. -/
theorem Linked.rowHash (linked : Linked platform tenant prev last rows) {place : Nat}
    {row : AuditRow} (found : rows[place]? = some row) :
    row.rowHash = some (encodeHex (tipOf prev (rows.take (place + 1))).val) := by
  induction rows generalizing prev last place with
  | nil => cases found
  | cons first rest ih =>
    obtain ⟨_, _, _, sum, _, hash, linked⟩ := linked
    cases place with
    | zero =>
      obtain rfl : first = row := Option.some.inj found
      simp [tipOf, hash]
    | succ place =>
      rw [take_succ_cons, tipOf, hash, Option.bind_some, decodeDigest_encodeHex,
        Option.getD_some]
      exact ih linked found

/-- A tenant's rows are what is left of this log above this floor, and the head says so. -/
structure Keeps (platform : Platform) (store : AuditStore) (tenant : UUID) (log : List AuditRow)
    (floor : Nat) : Prop where
  linked : Linked platform tenant zeroHash 0 log
  within : floor ≤ log.length
  rows : store.events.filter (·.chainedFor tenant) = log.drop floor
  head : Describes log floor (store.heads tenant)

end Log

section Steps

variable {platform : Platform} {store after : AuditStore} {tenant : UUID}
  {log : List AuditRow} {floor : Nat}

variable {e : ChainEvent} {now cutoff : Int} {fresh other : UUID} {seq removed : Nat}
  {query : AuditQuery}

/-- An append that is committed adds one row, linked to the head, and moves the head to it. -/
theorem appendOnce_extends (made : appendOnce platform store e now fresh = .ok after) :
    ∃ head prev row sum, store.heads e.tenantID = some head ∧
      decodeDigest (trimSpace head.hash) = some prev ∧ row.tenantID = e.tenantID ∧
      row.seq = some (head.seq + 1) ∧ row.prevHash = some (encodeHex prev.val) ∧
      chainHash platform prev (row.record e.tenantID (head.seq + 1)) = .ok sum ∧
      row.rowHash = some (encodeHex sum.val) ∧ (∀ other ∈ store.events, other.id ≠ row.id) ∧
      after.events = store.events ++ [row] ∧
      after.heads = update store.heads e.tenantID
        (some { head with seq := head.seq + 1, hash := encodeHex sum.val }) := by
  unfold appendOnce at made
  cases anchored : store.heads e.tenantID with
  | none => simp [anchored] at made
  | some head =>
    simp only [anchored] at made
    cases decoded : decodeDigest (trimSpace head.hash) with
    | none => simp [decoded] at made
    | some prev =>
      simp only [decoded] at made
      split at made
      · cases made
      · split at made
        · cases made
        · rename_i stored _
          split at made
          · rename_i accepted
            split at made
            · cases made
            · rename_i sum hashed
              have distinct : ∀ other ∈ store.events,
                  other.id ≠ (e.row now fresh (head.seq + 1) prev (some stored)).id := by
                intro other member
                have checked := all_eq_true.mp accepted other member
                simp only [Bool.and_eq_true, decide_eq_true_eq] at checked
                exact checked.1
              have unchanged : store.events.map (fun other =>
                  if other.id = (e.row now fresh (head.seq + 1) prev (some stored)).id then
                    { other with rowHash := some (encodeHex sum.val) } else other) =
                  store.events := by
                conv_rhs => rw [← map_id store.events]
                exact map_congr_left fun other member => if_neg (distinct other member)
              simp only [AuditStore.extend, anchored, if_true, Except.ok.injEq] at made
              refine ⟨head, prev, { e.row now fresh (head.seq + 1) prev (some stored) with
                rowHash := some (encodeHex sum.val) }, sum, rfl, decoded, rfl, rfl, ?_, hashed,
                rfl, distinct, ?_, ?_⟩
              · simp [ChainEvent.row]
              · rw [← made, map_append, unchanged]
                simp
              · rw [← made]
          · cases made

theorem ensureHead_events (other : UUID) : (store.ensureHead other).events = store.events := by
  unfold ensureHead
  split <;> rfl

theorem ensureHead_heads (store : AuditStore) (tenant other : UUID) :
    (store.ensureHead other).heads tenant = store.heads tenant ∨
      store.heads tenant = none ∧
        (store.ensureHead other).heads tenant = some { seq := 0, hash := zeroHashHex } := by
  unfold ensureHead
  split
  · exact .inl rfl
  · rename_i absent
    by_cases own : tenant = other
    · subst own
      exact .inr ⟨by simpa using absent, update_self _ _ _⟩
    · exact .inl (update_of_ne own _ _)

section

variable (keeps : Keeps platform store tenant log floor)

include keeps

theorem Keeps.ensureHead (other : UUID) :
    Keeps platform (store.ensureHead other) tenant log floor := by
  refine ⟨keeps.linked, keeps.within, ?_, ?_⟩
  · rw [ensureHead_events]
    exact keeps.rows
  · have head := keeps.head
    obtain same | ⟨missing, created⟩ := ensureHead_heads store tenant other
    · rw [same]
      exact head
    · rw [missing] at head
      obtain rfl : log = [] := head
      obtain rfl : floor = 0 := Nat.le_zero.mp keeps.within
      rw [created]
      exact ⟨rfl, rfl, rfl, rfl⟩

/-- An append extends the tenant's log by its row and leaves the other tenants alone. -/
theorem Keeps.append (made : appendOnce platform store e now fresh = .ok after) :
    ∃ added, Keeps platform after tenant (log ++ added) floor := by
  obtain ⟨head, prev, row, sum, anchored, decoded, own, seq, link, hashed, hash, _, events, heads⟩ :=
    appendOnce_extends made
  by_cases mine : tenant = e.tenantID
  · subst mine
    have describes := keeps.head
    rw [anchored] at describes
    obtain ⟨newest, tip, floored, anchor⟩ := describes
    have last : prev = tipOf zeroHash log := by
      rw [tip, trimSpace_encodeHex, decodeDigest_encodeHex] at decoded
      exact (Option.some.inj decoded).symm
    subst last
    rw [newest] at seq hashed
    have chained : [row].filter (·.chainedFor e.tenantID) = [row] := by
      simp [chainedFor, own, seq]
    refine ⟨[row], ?_, ?_, ?_, ?_⟩
    · rw [linked_append, Nat.zero_add]
      exact ⟨keeps.linked, own, seq, link, sum, hashed, hash, trivial⟩
    · rw [length_append]
      exact Nat.le_add_right_of_le keeps.within
    · rw [events, filter_append, keeps.rows, chained,
        drop_append_of_le_length keeps.within]
    · rw [heads, update_self]
      refine ⟨?_, ?_, floored, ?_⟩
      · rw [length_append, newest]
        rfl
      · rw [tipOf_append]
        simp [tipOf, hash]
      · rw [take_append_of_le_length keeps.within]
        exact anchor
  · have foreign : [row].filter (·.chainedFor tenant) = [] := by
      simp [chainedFor, own, Ne.symm mine]
    refine ⟨[], ?_⟩
    rw [append_nil]
    refine ⟨keeps.linked, keeps.within, ?_, ?_⟩
    · rw [events, filter_append, keeps.rows, foreign, append_nil]
    · rw [heads, update_of_ne mine]
      exact keeps.head

/-- A tenant's rows in order are what is left of its log. -/
theorem Keeps.chained_eq :
    store.chained tenant = log.drop floor := by
  have numbered := keeps.linked.numbered.drop keeps.within
  rw [chained, keeps.rows]
  exact numbered.insertionSort_eq

/-- A page shows the rows between two numbers, as far as they are left. -/
theorem Keeps.page (after bound limit : Nat) :
    store.read (.page tenant after bound limit) = some (.ok
      ((((log.drop floor).drop (after - floor)).take (bound - floor - (after - floor))).take
        limit)) := by
  have numbered := keeps.linked.numbered.drop keeps.within
  rw [Nat.zero_add] at numbered
  rw [AuditStore.read, keeps.chained_eq, numbered.filter_between, drop_take]

/-- No row at or below the floor is left. -/
theorem Keeps.rowsUpTo (below : seq ≤ floor) :
    store.read (.rowsUpTo tenant seq) = some (.ok (0, none)) := by
  have numbered := keeps.linked.numbered.drop keeps.within
  rw [Nat.zero_add] at numbered
  rw [AuditStore.read, keeps.chained_eq, numbered.filter_le, Nat.sub_eq_zero_of_le below]
  rfl

/-- The newest row is not beyond the end of the log. -/
theorem Keeps.newestBeyond {newest : Option Nat}
    (read : store.read (.newestBeyond tenant seq) = some (.ok newest)) :
    ∀ beyond ∈ newest, beyond ≤ log.length := by
  have bounds := keeps.linked.numbered.bounds
  rw [AuditStore.read, keeps.chained_eq] at read
  obtain rfl := Except.ok.inj (Option.some.inj read)
  intro beyond found
  obtain ⟨row, last, numbered⟩ := Option.bind_eq_some_iff.mp found
  have member := mem_of_mem_drop (mem_of_mem_filter (mem_of_getLast? last))
  have bound := (bounds row member).2
  rw [numbered, Option.getD_some, Nat.zero_add] at bound
  exact bound

theorem Keeps.retainUnchained (other : UUID) (cutoff : Int)
    : Keeps platform (store.retainUnchained other cutoff) tenant log floor := by
  refine ⟨keeps.linked, keeps.within, ?_, keeps.head⟩
  rw [← keeps.rows, AuditStore.retainUnchained, filter_filter]
  refine filter_congr fun row _ => ?_
  cases chained : row.seq <;> simp [chainedFor, expiredUnchained, chained]

end

/-- A sweep that removes rows has found the row of its new floor, and it has expired. -/
theorem sweep_removes (made : sweep store other cutoff = .ok (some (after, removed))) :
    ∃ head upTo row rowHash, store.heads other = some head ∧
      upTo = expiredPrefixEnd (store.firstLive other head.floorSeq cutoff) head.floorSeq head.seq ∧
      head.floorSeq < upTo ∧ store.rowAt other upTo = some row ∧ row.rowHash = some rowHash ∧
      after = store.withFloor other upTo
        { head with floorSeq := upTo, floorHash := trimSpace rowHash, floorTS := row.timestamp } := by
  unfold Audit.sweep at made
  cases anchored : store.heads other with
  | none => simp [anchored] at made
  | some head =>
    simp only [anchored] at made
    split at made
    · cases made
    · rename_i beyond
      split at made
      · cases made
      · rename_i row found
        split at made
        · cases made
        · rename_i rowHash hash
          split at made
          · cases made
          · split at made
            · cases made
            · simp only [Except.ok.injEq, Option.some.injEq, Prod.mk.injEq] at made
              exact ⟨head, _, row, rowHash, rfl, rfl, Nat.lt_of_not_le beyond, found, hash,
                made.1.symm⟩

/-- A sweep moves the floor of its tenant up and leaves the other tenants alone. -/
theorem Keeps.sweep (keeps : Keeps platform store tenant log floor)
    (made : sweep store other cutoff = .ok (some (after, removed))) :
    ∃ upTo, floor ≤ upTo ∧ Keeps platform after tenant log upTo := by
  obtain ⟨head, upTo, row, rowHash, anchored, _, beyond, found, hash, rfl⟩ := sweep_removes made
  by_cases mine : tenant = other
  · subst mine
    have describes := keeps.head
    rw [anchored] at describes
    obtain ⟨newest, tip, rfl, anchor⟩ := describes
    have numbered := keeps.linked.numbered.drop keeps.within
    rw [Nat.zero_add] at numbered
    have place : log[upTo - 1]? = some row := by
      rw [rowAt, keeps.chained_eq, numbered.find?_eq beyond, getElem?_drop] at found
      rw [← found]
      congr 1
      omega
    have within : upTo ≤ log.length := by
      have := (List.getElem?_eq_some_iff.mp place).1
      omega
    have restored : upTo - 1 + 1 = upTo := by omega
    refine ⟨upTo, Nat.le_of_lt beyond, keeps.linked, within, ?_, ?_⟩
    · have rest : (log.drop head.floorSeq).filter (fun row => upTo < row.seq.getD 0) =
          log.drop upTo := by
        rw [numbered.filter_gt, drop_drop]
        congr 1
        omega
      rw [← rest, ← keeps.rows, withFloor, filter_filter, filter_filter]
      refine filter_congr fun row _ => Bool.eq_iff_iff.mpr ?_
      cases chained : row.chainedFor tenant <;> simp [sweptUpTo, chained]
    · have floorHash : rowHash = encodeHex (tipOf zeroHash (log.take upTo)).val := by
        rw [keeps.linked.rowHash place, restored] at hash
        exact (Option.some.inj hash).symm
      simp only [withFloor, update_self]
      exact ⟨newest, tip, rfl, by rw [floorHash, trimSpace_encodeHex]⟩
  · refine ⟨floor, Nat.le_refl floor, keeps.linked, keeps.within, ?_, ?_⟩
    · rw [← keeps.rows, withFloor, filter_filter]
      refine filter_congr fun row _ => ?_
      by_cases own : row.tenantID = tenant
      · simp [sweptUpTo, chainedFor, own, mine]
      · simp [chainedFor, own]
    · simp only [withFloor, update_of_ne mine]
      exact keeps.head

/-- The log of a tenant has grown, and so has what is gone of it. -/
def Grows (platform : Platform) (tenant : UUID) (store after : AuditStore) : Prop :=
  ∀ log floor, Keeps platform store tenant log floor →
    ∃ added floor', floor ≤ floor' ∧ Keeps platform after tenant (log ++ added) floor'

theorem Grows.refl (store : AuditStore) : Grows platform tenant store store :=
  fun log floor keeps => ⟨[], floor, Nat.le_refl floor, by rwa [append_nil]⟩

theorem Grows.trans {later : AuditStore} (first : Grows platform tenant store after)
    (second : Grows platform tenant after later) : Grows platform tenant store later := by
  intro log floor keeps
  obtain ⟨added, floor', rises, keeps⟩ := first log floor keeps
  obtain ⟨more, floor'', rises', keeps⟩ := second _ _ keeps
  exact ⟨added ++ more, floor'', Nat.le_trans rises rises', by rwa [← append_assoc]⟩

/-- Whatever a question does, every tenant's log grows. -/
theorem Change.grows (change : Change platform store query after) :
    Grows platform tenant store after := by
  intro log floor keeps
  cases change with
  | none => exact ⟨[], floor, Nat.le_refl floor, by rwa [append_nil]⟩
  | ensured =>
    exact ⟨[], floor, Nat.le_refl floor, by rw [append_nil]; exact keeps.ensureHead _⟩
  | appended made =>
    obtain ⟨added, keeps⟩ := keeps.append made
    exact ⟨added, floor, Nat.le_refl floor, keeps⟩
  | swept made =>
    obtain ⟨upTo, rises, keeps⟩ := keeps.sweep made
    exact ⟨[], upTo, rises, by rwa [append_nil]⟩
  | retained =>
    exact ⟨[], floor, Nat.le_refl floor, by rw [append_nil]; exact keeps.retainUnchained _ _⟩

/-- No two rows have the same id. -/
def AuditStore.Distinct (store : AuditStore) : Prop := (store.events.map (·.id)).Nodup

theorem Change.distinct (change : Change platform store query after) (distinct : store.Distinct) :
    after.Distinct := by
  have part : ∀ keep, ((store.events.filter keep).map (·.id)).Nodup :=
    fun keep => distinct.sublist (filter_sublist.map _)
  cases change with
  | none => exact distinct
  | ensured =>
    rw [AuditStore.Distinct, ensureHead_events]
    exact distinct
  | appended made =>
    obtain ⟨_, _, row, _, _, _, _, _, _, _, _, other, events, _⟩ := appendOnce_extends made
    rw [AuditStore.Distinct, events, map_append, nodup_append]
    refine ⟨distinct, nodup_singleton _, ?_⟩
    intro id member id' added same
    obtain ⟨held, inside, rfl⟩ := mem_map.mp member
    simp only [map_cons, map_nil, mem_singleton] at added
    exact other held inside (same.trans added)
  | swept made =>
    obtain ⟨_, _, _, _, _, _, _, _, _, rfl⟩ := sweep_removes made
    exact part _
  | retained => exact part _

end Steps

end Cleat.Audit
