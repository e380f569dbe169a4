import Cleat.Store.Lease

/-!
# Fencing a batch of events

One flusher collects the events of every run that its worker executes and writes them together.
Before it writes, it asks the store in one statement which of the claims in the batch still
hold, and renews their leases. The answer names the runs whose lease matched some claim, and an
entry passes if its run is named.

The leases are those the flusher's tenant can see. A batch without a claim is not checked.
-/
namespace Cleat.Store

open List

/-- An event that waits to be written, with the claim it was produced under. Without a worker
the entry is not fenced. -/
structure BatchEntry where
  workflowID : String
  workerID : String
  generation : Int
  step : Int
deriving DecidableEq, Repr

/-- A run, the worker that executes it, and the generation it was claimed under. -/
structure BatchClaim where
  workflowID : String
  workerID : String
  generation : Int
deriving DecidableEq, Repr

def BatchEntry.claim (entry : BatchEntry) : BatchClaim :=
  ⟨entry.workflowID, entry.workerID, entry.generation⟩

def BatchEntry.fenced (entry : BatchEntry) : Bool := entry.workerID ≠ ""

attribute [local simp] BatchEntry.fenced

/-- The lease table by run. -/
abbrev LeaseTable := String → Option Lease

/-- The lease of the claim's run names its worker and its generation. -/
def LeaseTable.carries (leases : LeaseTable) (claim : BatchClaim) : Bool :=
  (leases claim.workflowID).any fun lease =>
    lease.assignedTo = some claim.workerID && (lease.generation : Int) = claim.generation

/-- What the check asks of the database, in its order. -/
inductive FenceStage where
  | begin | setTenant | query | scan | rows | close | mirror | commit
deriving DecidableEq, Repr

def FenceStage.failure (stage : FenceStage) (reported : String) : String :=
  let label :=
    match stage with
    | .begin => ": begin: "
    | .setTenant => ": set tenant: "
    | .query => ": "
    | .scan => " scan: "
    | .rows => " rows: "
    | .close => " close: "
    | .mirror => ": mirror lease: "
    | .commit => " commit: "
  "adaptive flusher: batch fence check" ++ label ++ reported

/-- The distinct claims of a batch, in the order in which they first occur. -/
def claimsOf (batch : List BatchEntry) : List BatchClaim :=
  batch.foldl (fun claims entry =>
    if entry.workerID = "" then claims
    else if claims.contains entry.claim then claims
    else claims ++ [entry.claim]) []

/-- The runs that the statement returns: those whose lease matches one of the claims. -/
def fencedRows (leases : LeaseTable) (claims : List BatchClaim) : List String :=
  (claims.filter leases.carries).map (·.workflowID)

/-- The leases with those of the named runs renewed. -/
def renew (leases : LeaseTable) (ids : List String) (nowMs : Int) : LeaseTable := fun id =>
  (leases id).map fun lease =>
    if ids.contains id then { lease with heartbeatAt := some nowMs } else lease

/-- Split a batch into the entries whose claim still holds and the others, and renew the leases.
`fault` is the error that the database reports at a stage. The rows are read one by one, and
without a row neither the scan nor the renewal is reached. -/
def partitionFencedBatch (fault : FenceStage → Option String) (leases : LeaseTable) (nowMs : Int)
    (batch : List BatchEntry) : Except String (List BatchEntry × List BatchEntry) × LeaseTable :=
  let claims := claimsOf batch
  if claims.isEmpty then (.ok (batch, []), leases)
  else
    let fencedOK := fencedRows leases claims
    let stages : List FenceStage :=
      if fencedOK.isEmpty then [.begin, .setTenant, .query, .rows, .close, .commit]
      else [.begin, .setTenant, .query, .scan, .rows, .close, .mirror, .commit]
    match stages.findSome? fun stage => (fault stage).map stage.failure with
    | some failure => (.error failure, leases)
    | none =>
      let held := fun (entry : BatchEntry) =>
        entry.workerID = "" || fencedOK.contains entry.workflowID
      (.ok (batch.filter held, batch.filter fun entry => !held entry),
        renew leases fencedOK nowMs)

section Answer

variable {leases : LeaseTable} {batch : List BatchEntry}

theorem mem_claimsOf {claim : BatchClaim} :
    claim ∈ claimsOf batch ↔ ∃ entry ∈ batch, entry.fenced ∧ entry.claim = claim := by
  -- The claims collected so far are generalised: a claim is among the result if it was already
  -- collected or one of the remaining entries carries it.
  suffices collected : ∀ claims : List BatchClaim,
      claim ∈ batch.foldl (fun claims entry =>
        if entry.workerID = "" then claims
        else if claims.contains entry.claim then claims
        else claims ++ [entry.claim]) claims ↔
      claim ∈ claims ∨ ∃ entry ∈ batch, entry.fenced ∧ entry.claim = claim by
    have fromNone := collected []
    rwa [mem_nil_iff, false_or] at fromNone
  induction batch with
  | nil => simp
  | cons entry rest induction =>
    intro claims
    rw [foldl_cons, induction]
    simp only [BatchEntry.fenced, contains_iff_mem, mem_cons, exists_eq_or_imp]
    split
    · simp_all
    · split <;> grind

/-- A run is named by the answer if some claim on it in the batch holds. -/
theorem mem_fencedRows {id : String} :
    id ∈ fencedRows leases (claimsOf batch) ↔
      ∃ entry ∈ batch, entry.fenced ∧ leases.carries entry.claim ∧ entry.workflowID = id := by
  simp only [fencedRows, mem_map, mem_filter, mem_claimsOf]
  constructor
  · rintro ⟨claim, ⟨⟨entry, member, fenced, rfl⟩, carried⟩, rfl⟩
    exact ⟨entry, member, fenced, carried, rfl⟩
  · rintro ⟨entry, member, fenced, carried, rfl⟩
    exact ⟨entry.claim, ⟨⟨entry, member, fenced, rfl⟩, carried⟩, rfl⟩

/-- The entries that are kept are the unfenced ones and those whose run is named. A batch that is
not checked has no other entries. -/
theorem held_of_partition {fault : FenceStage → Option String} {nowMs : Int}
    {held lost : List BatchEntry}
    (returned : (partitionFencedBatch fault leases nowMs batch).1 = .ok (held, lost)) :
    held = batch.filter fun entry =>
      entry.workerID = "" || (fencedRows leases (claimsOf batch)).contains entry.workflowID := by
  revert returned
  fun_cases partitionFencedBatch fault leases nowMs batch with
  | case1 claims none =>
    rintro ⟨⟩
    refine (filter_eq_self.mpr fun entry member => ?_).symm
    have unfenced : entry.fenced = false := by
      by_contra fenced
      have claimed := mem_claimsOf.mpr ⟨entry, member, by simpa using fenced, rfl⟩
      exact ne_nil_of_mem claimed (isEmpty_iff.mp none)
    simp_all
  | case2 => nofun
  | case3 =>
    rintro ⟨⟩
    rfl

end Answer

/-- The kept entries are, in their order, those without a worker and those whose own claim the
lease of their run carries. -/
def FencedPerClaim (leases : LeaseTable) (batch held : List BatchEntry) : Prop :=
  held = batch.filter fun entry => entry.workerID = "" || leases.carries entry.claim

/-- Of the fenced entries of one run in a batch, either all carry the claim of its lease or none. -/
def ClaimsAgree (leases : LeaseTable) (batch : List BatchEntry) : Prop :=
  ∀ entry ∈ batch, ∀ other ∈ batch, entry.fenced → other.fenced →
    entry.workflowID = other.workflowID → leases.carries other.claim → leases.carries entry.claim

/-- A batch that is split is fenced per claim exactly if the claims on each of its runs agree.
Two claims on one run of which only the newer holds let the older entry pass.

Proof: an entry passes if a claim on its run holds. So the two selections differ at an entry
exactly if its own claim does not hold and another one on its run does. -/
theorem fencedPerClaim_iff_claimsAgree {fault : FenceStage → Option String} {leases : LeaseTable}
    {nowMs : Int} {batch held lost : List BatchEntry}
    (returned : (partitionFencedBatch fault leases nowMs batch).1 = .ok (held, lost)) :
    FencedPerClaim leases batch held ↔ ClaimsAgree leases batch := by
  rw [FencedPerClaim, held_of_partition returned]
  constructor
  · intro same entry member other otherMember fenced otherFenced sameRun carried
    have named : entry.workflowID ∈ fencedRows leases (claimsOf batch) :=
      mem_fencedRows.mpr ⟨other, otherMember, otherFenced, carried, sameRun.symm⟩
    have kept : entry ∈ batch.filter fun entry =>
        entry.workerID = "" || leases.carries entry.claim := by
      rw [← same]
      simp [member, named]
    simp_all
  · intro agree
    refine filter_congr fun entry member => ?_
    by_cases unfenced : entry.workerID = ""
    · simp [unfenced]
    · have fenced : entry.fenced := by simp [unfenced]
      have named : entry.workflowID ∈ fencedRows leases (claimsOf batch) ↔
          leases.carries entry.claim := by
        refine mem_fencedRows.trans ⟨?_, fun carried => ⟨entry, member, fenced, carried, rfl⟩⟩
        rintro ⟨other, otherMember, otherFenced, carried, sameRun⟩
        exact agree entry member other otherMember fenced otherFenced sameRun.symm carried
      simp [unfenced, named]

/-- A run that was claimed again: its lease carries the second generation. -/
def reclaimed : LeaseTable := fun id =>
  if id = "wf" then some { nextWakeAt := 0, assignedTo := some "worker", generation := 2 } else none

/-- Entries of two runs, of which the second is held by nobody. -/
def twoRuns : List BatchEntry := [⟨"wf", "worker", 2, 7⟩, ⟨"gone", "worker", 1, 3⟩]

theorem fencedPerClaim_reclaimed :
    FencedPerClaim reclaimed twoRuns [⟨"wf", "worker", 2, 7⟩] ↔ ClaimsAgree reclaimed twoRuns := by
  have returned : (partitionFencedBatch (fun _ => none) reclaimed 0 twoRuns).1 =
      .ok ([⟨"wf", "worker", 2, 7⟩], [⟨"gone", "worker", 1, 3⟩]) := by decide
  exact fencedPerClaim_iff_claimsAgree returned

/-- The entry of the first claim passes beside one of the second, although the lease does not
carry its generation. -/
theorem stale_claim_kept :
    ∃ held lost, (partitionFencedBatch (fun _ => none) reclaimed 0
        [⟨"wf", "worker", 1, 6⟩, ⟨"wf", "worker", 2, 7⟩]).1 = .ok (held, lost) ∧
      ¬ FencedPerClaim reclaimed [⟨"wf", "worker", 1, 6⟩, ⟨"wf", "worker", 2, 7⟩] held :=
  ⟨[⟨"wf", "worker", 1, 6⟩, ⟨"wf", "worker", 2, 7⟩], [], by decide, by unfold FencedPerClaim; decide⟩

end Cleat.Store
