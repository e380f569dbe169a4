import Mathlib.Data.List.Dedup
import Mathlib.Data.List.Perm.Subperm

/-!
# Awaiting a quorum of signals

A workflow awaits signals under several names until enough of them have been received. Without a
host call for it the guest's runtime awaits one signal after another, each under the names that
have not been received yet.

A quorum counts names, so each name is to count once. What is removed after a signal is one
occurrence of its name, so a name that was given twice is awaited twice.
-/
namespace Cleat.Quorum

open List

/-- What an await returns. Times are in nanoseconds. -/
structure SignalResult where
  name : String := ""
  payload : String := ""
  replyTo : String := ""
  timedOut : Bool := false
  err : Option String := none
deriving DecidableEq, Repr

/-- What the runtime reads out of a payload: the address and the text in a reply envelope, and
the member `rejected` if the payload is an object in which it is a Boolean. The empty text is
neither. -/
structure Codec where
  decodeSignalEnvelope : String → Option (String × String)
  rejected : String → Option Bool
  envelope_empty : decodeSignalEnvelope "" = none
  rejected_empty : rejected "" = none

/-- The host as a run finds it: the readings of the clock and the answers to the awaits, by
number. The first reading sets the deadline. -/
structure Host where
  clock : Nat → Int
  answer : Nat → SignalResult

variable (codec : Codec) (host : Host)

/-- Move the address in a reply envelope to its own field. -/
def unwrapSignalResult (result : SignalResult) : SignalResult :=
  match codec.decodeSignalEnvelope result.payload with
  | some (replyTo, inner) => { result with replyTo := replyTo, payload := inner }
  | none => result

/-- The signal that the host gives to an await. -/
def Host.received (turn : Nat) : SignalResult := unwrapSignalResult codec (host.answer turn)

/-- An await that the runtime asks of the host: the names, and the milliseconds it may take. -/
structure Await where
  names : List String
  timeoutMs : Int
deriving DecidableEq, Repr

/-- Await one of the names. A time that rounds to no millisecond is not asked of the host. -/
def awaitSignals (turn : Nat) (names : List String) (timeout : Int) : SignalResult × List Await :=
  let ms := timeout.tdiv 1000000
  if ms ≤ 0 then
    ({ timedOut := true, err := some s!"AwaitSignals: a timeout of {timeout} rounds to 0ms" }, [])
  else (host.received codec turn, [⟨names, ms⟩])

def containsName : List String → String → Bool
  | [], _ => false
  | head :: names, name => if head = name then true else containsName names name

/-- The names without the first occurrence of a name. -/
def withoutName : List String → String → List String
  | [], _ => []
  | head :: names, name => if head = name then names else head :: withoutName names name

/-- Why a quorum was not reached. -/
inductive QuorumError where
  | unsatisfiable (minCount : Int) (names : List String)
  | timeout (timeout : Int) (got : Nat) (minCount : Int)
  | signal (error : String)
  | stranger (awaited : List String) (name : String)
  | rejections (maxRejections : Int)
deriving DecidableEq, Repr

/-- What a call returns, and the awaits it asked of the host. -/
structure Outcome where
  results : List SignalResult
  err : Option QuorumError
  awaits : List Await
deriving DecidableEq, Repr

/-- The payload of a signal says that it rejects. -/
def rejects (result : SignalResult) : Bool := codec.rejected result.payload = some true

/-- The loop with `missing` signals to go. Each turn receives one signal or returns. -/
def quorumLoop (minCount maxRejections timeout : Int) : Nat → List String → Nat →
    List SignalResult → Outcome
  | 0, _, _, results => ⟨results, none, []⟩
  | missing + 1, remaining, rejectionCount, results =>
    let turn := results.length
    let late := some (QuorumError.timeout timeout turn minCount)
    let remainingTime := host.clock 0 + timeout - host.clock (turn + 1)
    if remainingTime ≤ 0 then ⟨results, late, []⟩
    else
      let (result, awaits) := awaitSignals codec host turn remaining remainingTime
      if result.timedOut then ⟨results, late, awaits⟩
      else
        match result.err with
        | some error => ⟨results, some (.signal error), awaits⟩
        | none =>
          if !containsName remaining result.name then
            ⟨results, some (.stranger remaining result.name), awaits⟩
          else
            let results := results ++ [result]
            let rejected := 0 ≤ maxRejections && rejects codec result
            let rejectionCount := if rejected then rejectionCount + 1 else rejectionCount
            if rejected && maxRejections < rejectionCount then
              ⟨results, some (.rejections maxRejections), awaits⟩
            else
              let rest := quorumLoop minCount maxRejections timeout missing
                (withoutName remaining result.name) rejectionCount results
              { rest with awaits := awaits ++ rest.awaits }

/-- Await a quorum where the host has no call for it. -/
def awaitSignalsWithQuorum (signalNames : List String) (minCount maxRejections timeout : Int) :
    Outcome :=
  if (signalNames.length : Int) < minCount then ⟨[], some (.unsatisfiable minCount signalNames), []⟩
  else quorumLoop codec host minCount maxRejections timeout minCount.toNat signalNames 0 []

@[simp]
theorem containsName_iff {names : List String} {name : String} :
    containsName names name = true ↔ name ∈ names := by
  fun_induction containsName names name <;> grind

@[simp]
theorem withoutName_eq_erase (names : List String) (name : String) :
    withoutName names name = names.erase name := by
  fun_induction withoutName names name <;> grind

variable {codec host}

/-- A loop without an error has received one signal in each turn, under names that were awaited,
each as often as it was, and with no more rejections than are allowed.

Proof: by induction over the turns. Each removes the name it received from those that remain. -/
theorem quorumLoop_received {minCount maxRejections timeout : Int} {missing : Nat}
    {remaining : List String} {rejectionCount : Nat} {results : List SignalResult}
    (reached : (quorumLoop codec host minCount maxRejections timeout missing remaining
      rejectionCount results).err = none) :
    ∃ received, (quorumLoop codec host minCount maxRejections timeout missing remaining
        rejectionCount results).results = results ++ received ∧
      received = (range' results.length missing).map (host.received codec) ∧
      (received.map (·.name)).Subperm remaining ∧
      (0 ≤ maxRejections → rejectionCount ≤ maxRejections →
        rejectionCount + received.countP (rejects codec) ≤ maxRejections) := by
  revert reached
  fun_induction quorumLoop codec host minCount maxRejections timeout missing remaining
      rejectionCount results with
  | case1 => exact fun _ => ⟨[], by simp⟩
  | case7 missing remaining count results turn time inTime result awaits awaited timely unfailed
      listed results' rejected count' allowed rest induction =>
    intro reached
    obtain ⟨received, collected, rfl, voters, few⟩ := induction reached
    have given : result = host.received codec results.length := by
      revert awaited
      fun_cases awaitSignals codec host turn remaining time with
      | case1 =>
        rintro ⟨⟩
        simp at timely
      | case2 =>
        rintro ⟨⟩
        rfl
    have awaitedName : result.name ∈ remaining := by simpa using listed
    refine ⟨result :: (range' results'.length missing).map (host.received codec), ?_, ?_, ?_,
      ?_⟩
    · rw [append_cons]
      exact collected
    · rw [given, range'_succ, map_cons]
      simp [results']
    · rw [withoutName_eq_erase] at voters
      exact ((subperm_cons _).mpr voters).trans (perm_cons_erase awaitedName).symm.subperm
    · intro bounded within
      rw [countP_cons]
      cases rejecting : rejects codec result with
      | false =>
        have same : count' = count := by simp [count', rejected, rejecting]
        have := few bounded (same ▸ within)
        simp_all
      | true =>
        have more : count' = count + 1 := by simp [count', rejected, rejecting, bounded]
        have kept : count' ≤ maxRejections := by simpa [rejected, rejecting, bounded] using allowed
        have := few bounded kept
        rw [if_pos rfl]
        omega
  | _ => nofun

/-- A host whose signals arrive at once, under the given names one after the other. -/
def prompt (voters : List String) : Host where
  clock _ := 0
  answer turn := { name := voters.getD turn "" }

variable (codec)

/-- Names that are awaited as often as they are given satisfy a quorum.

Proof: by induction over the names to come. Each is among those that remain. -/
theorem quorumLoop_prompt (minCount maxRejections : Int) (before after remaining : List String)
    (rejectionCount : Nat) (results : List SignalResult) (turns : results.length = before.length)
    (listed : after.Subperm remaining) :
    let outcome := quorumLoop codec (prompt (before ++ after)) minCount maxRejections 1000000
      after.length remaining rejectionCount results
    outcome.err = none ∧ outcome.results = results ++ after.map fun name => { name := name } := by
  induction after generalizing before remaining rejectionCount results with
  | nil => simp [quorumLoop]
  | cons name after induction =>
    have given : (prompt (before ++ name :: after)).received codec results.length =
        { name := name } := by
      simp [Host.received, prompt, unwrapSignalResult, codec.envelope_empty, turns]
    have mild : rejects codec { name := name } = false := by simp [rejects, codec.rejected_empty]
    have among : containsName remaining name = true :=
      containsName_iff.mpr (listed.subset mem_cons_self)
    have rest := induction (before ++ [name]) (remaining.erase name) rejectionCount
      (results ++ [{ name := name }]) (by simp [turns]) (by simpa using listed.erase name)
    rw [← append_cons] at rest
    have still : ∀ turn, (prompt (before ++ name :: after)).clock turn = 0 := fun _ => rfl
    generalize prompt (before ++ name :: after) = host at given still rest
    simpa [quorumLoop, awaitSignals, still, given, mild, among] using rest

/-- The results of a quorum are the first signals received, as many as were asked for, under
distinct names of the list and with no more rejections than are allowed. A quorum of more names
than there are is refused before anything is awaited. -/
structure DistinctVoters (host : Host) (signalNames : List String) (minCount maxRejections : Int)
    (outcome : Outcome) : Prop where
  counted : outcome.err = none →
    outcome.results = (List.range minCount.toNat).map (host.received codec)
  distinct : outcome.err = none → (outcome.results.map (·.name)).Nodup
  listed : outcome.err = none → ∀ result ∈ outcome.results, result.name ∈ signalNames
  tolerated : outcome.err = none → 0 ≤ maxRejections →
    outcome.results.countP (rejects codec) ≤ maxRejections
  refused : (signalNames.dedup.length : Int) < minCount →
    outcome.err ≠ none ∧ outcome.awaits = []

/-- A quorum counts distinct names with every host exactly if no name is given twice, if at most
one signal is asked for, or if more are asked for than there are entries in the list.

Proof: the names received are awaited as often as they were given. With distinct names they are
distinct. A name that is given twice is counted twice by a host that sends it twice. -/
theorem distinctVoters_iff {signalNames : List String} {minCount maxRejections : Int} :
    (∀ host timeout, DistinctVoters codec host signalNames minCount maxRejections
      (awaitSignalsWithQuorum codec host signalNames minCount maxRejections timeout)) ↔
    signalNames.Nodup ∨ minCount ≤ 1 ∨ (signalNames.length : Int) < minCount := by
  constructor
  · intro counts
    by_contra! ⟨repeated, several, enough⟩
    obtain ⟨more, rfl⟩ : ∃ more : Nat, minCount = (more + 2 : Nat) := ⟨minCount.toNat - 2, by omega⟩
    obtain ⟨name, twice⟩ : ∃ name, [name, name].Sublist signalNames := by
      simpa [nodup_iff_sublist] using repeated
    obtain ⟨rest, order⟩ := twice.exists_perm_append
    have long : rest.length + 2 = signalNames.length := by simp [order.length_eq]
    have voters : (name :: name :: rest.take more).Subperm signalNames :=
      List.Subperm.trans (((take_sublist more rest).cons_cons name).cons_cons name).subperm
        order.symm.subperm
    have length : (name :: name :: rest.take more).length = more + 2 := by simp; omega
    obtain ⟨reached, collected⟩ := quorumLoop_prompt codec (more + 2 : Nat) maxRejections [] _
      signalNames 0 [] rfl voters
    rw [length, nil_append] at reached collected
    have distinct := (counts (prompt (name :: name :: rest.take more)) 1000000).distinct
    rw [awaitSignalsWithQuorum, if_neg (by omega), Int.toNat_natCast] at distinct
    have names := distinct reached
    rw [collected] at names
    simp at names
  · intro admitted host timeout
    by_cases refused : (signalNames.length : Int) < minCount
    · rw [awaitSignalsWithQuorum, if_pos refused]
      constructor <;> simp
    rw [awaitSignalsWithQuorum, if_neg refused]
    constructor
    case refused =>
      intro few
      rcases admitted with distinct | atMostOne | many
      · rw [dedup_eq_self.mpr distinct] at few
        exact absurd few refused
      · have none : signalNames.dedup = [] := length_eq_zero_iff.mp (by omega)
        simp_all
        omega
      · exact absurd many refused
    all_goals
      intro reached
      obtain ⟨received, collected, given, voters, tolerated⟩ := quorumLoop_received reached
      rw [collected]
    case counted => rw [given, range_eq_range']; rfl
    case distinct =>
      rcases admitted with distinct | atMostOne | many
      · obtain ⟨listed, order, part⟩ := voters
        exact order.nodup_iff.mp (part.nodup distinct)
      · have single : minCount.toNat = 0 ∨ minCount.toNat = 1 := by omega
        rcases single with zero | one
        · simp [given, zero]
        · simp [given, one]
      · exact absurd many refused
    case listed =>
      intro result member
      exact voters.subset (mem_map_of_mem member)
    case tolerated =>
      intro bounded
      simpa using tolerated bounded (by simpa using bounded)

/-- A codec that finds neither envelopes nor rejections. -/
def plain : Codec := ⟨fun _ => none, fun _ => none, rfl, rfl⟩

/-- One voter that is listed twice and signals twice makes a quorum of two. -/
theorem one_voter_counted_twice :
    ¬ DistinctVoters plain (prompt ["approve", "approve"]) ["approve", "approve"] 2 0
      (awaitSignalsWithQuorum plain (prompt ["approve", "approve"]) ["approve", "approve"] 2 0
        1000000) := by
  intro counts
  have names := counts.distinct (by decide)
  revert names
  decide

end Cleat.Quorum
