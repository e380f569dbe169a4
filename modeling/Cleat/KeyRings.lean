import Cleat.Session
import Mathlib.Data.List.Sort

/-!
# Reloading key rings

A worker seals and opens with the keys of a ring, which carry version numbers that an operator
declares. A ring can be replaced while the worker runs, and a candidate that gives a version of
the live ring another key is refused. Only the live ring is looked at: a version that one reload
drops can come back with another key in a later one.
-/
namespace Cleat.KeyRings

open List

structure VersionedKey where
  version : Int
  key : Bytes
deriving DecidableEq

/-- Why a ring cannot be built. -/
inductive KeyRingError where
  | notPositive (version : Int)
  | wrongSize (version : Int) (length : Nat)
  | configuredTwice (version : Int)
  | sameKey (other version : Int)
deriving DecidableEq

/-- Check the keys of a ring one after the other, each against those before it. -/
def checkKeys (earlier : List VersionedKey) : List VersionedKey → Option KeyRingError
  | [] => none
  | k :: rest =>
    if k.version < 1 then some (.notPositive k.version)
    else if k.key.length ≠ 32 then some (.wrongSize k.version k.key.length)
    else (earlier.findSome? fun other =>
        if other.version = k.version then some (.configuredTwice k.version)
        else if other.key = k.key then some (.sameKey other.version k.version)
        else none).or (checkKeys (earlier ++ [k]) rest)

/-- The key that seals and those that only open. -/
structure KeyRing where
  current : VersionedKey
  previous : List VersionedKey
  valid : checkKeys [] (current :: previous) = none

/-- The key of a version. A ring that is not configured has none. -/
def keyOf (ring : Option KeyRing) (version : Int) : Option VersionedKey :=
  ring.bind fun ring => (ring.current :: ring.previous).find? (·.version = version)

def versions (ring : Option KeyRing) : List Int :=
  (ring.elim [] fun ring => (ring.current :: ring.previous).map (·.version)).insertionSort (· ≤ ·)

/-- The first version to which a ring would give another key than the live one. -/
def refuseReusedVersion (current next : Option KeyRing) : Option Int :=
  (versions current).find? fun version =>
    match keyOf current version, keyOf next version with
    | some old, some new => old.key ≠ new.key
    | _, _ => false

def droppedVersions (current next : Option KeyRing) : List Int :=
  ((versions current).filter fun version => (keyOf next version).isNone).insertionSort (· ≤ ·)

/-- Replace a live ring unless a version is reused. -/
def reload (live next : Option KeyRing) : Except Int (List Int) × Option KeyRing :=
  match refuseReusedVersion live next with
  | some version => (.error version, live)
  | none => (.ok (droppedVersions live next), next)

/-! ## The rings of a worker -/

/-- The two rings that a worker shares among its stores. -/
inductive Cell where
  | payload | secrets
deriving DecidableEq

abbrev LiveRings := Cell → Option KeyRing

/-- A call of `Reload` on one of the rings. -/
structure ReloadCall where
  cell : Cell
  next : Option KeyRing

def ReloadCall.accepted (live : LiveRings) (call : ReloadCall) : Bool :=
  (reload (live call.cell) call.next).1.isOk

def ReloadCall.perform (live : LiveRings) (call : ReloadCall) : LiveRings :=
  Function.update live call.cell (reload (live call.cell) call.next).2

/-- What a signal finds: the two configured rings, whether the gate lets the check run, whether the
candidate opens every secret, and whether the registration holds afterwards. -/
structure Sighup where
  payload : Except String (Option KeyRing)
  secrets : Except String (Option KeyRing)
  entered : Bool
  opens : Bool
  registered : Bool

/-- The second step of a reload. If it fails, the payload ring is put back. -/
def reloadSecretsOnSIGHUP (live : LiveRings) (sig : Sighup) (revertPayloadRing : List ReloadCall) :
    List ReloadCall :=
  match sig.secrets with
  | .error _ => revertPayloadRing
  | .ok candidate =>
    if !sig.entered || !sig.opens then revertPayloadRing
    else if !ReloadCall.accepted live ⟨.secrets, candidate⟩ then
      ⟨.secrets, candidate⟩ :: revertPayloadRing
    else if sig.registered then [⟨.secrets, candidate⟩]
    else ⟨.secrets, candidate⟩ :: ⟨.secrets, live .secrets⟩ :: revertPayloadRing

/-- The calls that a signal makes, the reverts among them. -/
def reloadKeyRingsOnSIGHUP (payloadConfigured : Bool) (live : LiveRings) (sig : Sighup) :
    List ReloadCall :=
  if !payloadConfigured then reloadSecretsOnSIGHUP live sig []
  else
    match sig.payload with
    | .error _ => []
    | .ok candidate =>
      let call : ReloadCall := ⟨.payload, candidate⟩
      if call.accepted live then
        call :: reloadSecretsOnSIGHUP (call.perform live) sig [⟨.payload, live .payload⟩]
      else [call]

/-- What happens to the rings of a worker: a call of `Reload`, or a signal. -/
inductive KeyStep where
  | reload (call : ReloadCall)
  | sighup (sig : Sighup)

/-- The calls of a run. -/
def callsOf (payloadConfigured : Bool) (live : LiveRings) : List KeyStep → List ReloadCall
  | [] => []
  | step :: steps =>
    let made :=
      match step with
      | .reload call => [call]
      | .sighup sig => reloadKeyRingsOnSIGHUP payloadConfigured live sig
    made ++ callsOf payloadConfigured (made.foldl ReloadCall.perform live) steps

/-- The rings that are live in a cell after each of the calls. -/
def lived (cell : Cell) (live : LiveRings) : List ReloadCall → List (Option KeyRing)
  | [] => []
  | call :: calls => call.perform live cell :: lived cell (call.perform live) calls

/-! ## What a version means -/

/-- Two rings hold the same key under every version that both hold. -/
def Agree (one other : Option KeyRing) : Prop :=
  ∀ version old new, keyOf one version = some old → keyOf other version = some new →
    old.key = new.key

/-- A ring gives another key to a version that the live ring does not hold any more. -/
def Reuses (past : List (Option KeyRing)) (live next : Option KeyRing) : Prop :=
  ∃ ring ∈ past, ∃ version old new, keyOf live version = none ∧ keyOf ring version = some old ∧
    keyOf next version = some new ∧ old.key ≠ new.key

/-- No call that is accepted reuses a version that one of the past rings held. -/
def NeverReuses (cell : Cell) (past : List (Option KeyRing)) (live : LiveRings) :
    List ReloadCall → Prop
  | [] => True
  | call :: calls =>
    (call.cell = cell → call.accepted live → ¬ Reuses past (live cell) call.next) ∧
      NeverReuses cell (past ++ [call.perform live cell]) (call.perform live) calls

section

variable {cell : Cell} {live : LiveRings} {call : ReloadCall} {past : List (Option KeyRing)}
  {one other : Option KeyRing}

theorem Agree.refl (ring : Option KeyRing) : Agree ring ring := by
  intro version old new held again
  rw [Option.some.inj (held.symm.trans again)]

theorem Agree.symm (agree : Agree one other) : Agree other one :=
  fun version old new held again => (agree version new old again held).symm

theorem mem_versions {version : Int} {key : VersionedKey} (held : keyOf one version = some key) :
    version ∈ versions one := by
  obtain ⟨ring, rfl, found⟩ := Option.bind_eq_some_iff.mp held
  have named : key.version = version := by simpa using find?_some found
  rw [versions, mem_insertionSort]
  exact mem_map.mpr ⟨key, mem_of_find?_eq_some found, named⟩

/-- A candidate is accepted if it agrees with the live ring. -/
theorem refuseReusedVersion_eq_none_iff : refuseReusedVersion one other = none ↔ Agree one other := by
  rw [refuseReusedVersion, find?_eq_none]
  constructor
  · intro same version old new held again
    simpa [held, again] using same version (mem_versions held)
  · intro agree version _
    cases held : keyOf one version with
    | none => simp
    | some old =>
      cases again : keyOf other version with
      | none => simp
      | some new => simpa using agree version old new held again

theorem reload_cases :
    Agree one other ∧ (reload one other).1.isOk = true ∧ (reload one other).2 = other ∨
      (reload one other).1.isOk = false ∧ (reload one other).2 = one := by
  rw [← refuseReusedVersion_eq_none_iff, reload]
  cases refuseReusedVersion one other with
  | none => exact .inl ⟨rfl, rfl, rfl⟩
  | some version => exact .inr ⟨rfl, rfl⟩

/-- A ring that is live after a call agrees with all before it exactly if no version was reused. -/
theorem perform_agrees_iff (stable : past.Pairwise Agree) (here : live cell ∈ past) :
    (∀ ring ∈ past, Agree ring (call.perform live cell)) ↔
      (call.cell = cell → call.accepted live → ¬ Reuses past (live cell) call.next) := by
  have agrees : ∀ ring ∈ past, Agree ring (live cell) :=
    fun ring member =>
      stable.forall_of_forall_of_flip (fun _ _ => .refl _) (stable.imp .symm) member here
  by_cases own : call.cell = cell
  · subst own
    rw [ReloadCall.perform, Function.update_self, ReloadCall.accepted]
    rcases @reload_cases (live call.cell) call.next with
      ⟨accepted, ok, same⟩ | ⟨refused, same⟩
    · simp only [same, ok, forall_const]
      constructor
      · rintro alike ⟨ring, member, version, old, new, _, held, again, differs⟩
        exact differs (alike ring member version old new held again)
      · intro fresh ring member version old new held again
        cases still : keyOf (live call.cell) version with
        | none =>
          by_contra differs
          exact fresh ⟨ring, member, version, old, new, still, held, again, differs⟩
        | some key =>
          exact (agrees ring member version old key held still).trans
            (accepted version key new still again)
    · simpa [same, refused] using agrees
  · rw [ReloadCall.perform, Function.update_of_ne (Ne.symm own)]
    simpa [own] using agrees

/-- The rings of a run agree exactly if no version is reused, whatever rings came before. -/
theorem lived_agree_iff (calls : List ReloadCall) (stable : past.Pairwise Agree)
    (here : live cell ∈ past) :
    (past ++ lived cell live calls).Pairwise Agree ↔ NeverReuses cell past live calls := by
  induction calls generalizing past live with
  | nil => simpa [lived, NeverReuses] using stable
  | cons call calls ih =>
    have grown : (past ++ [call.perform live cell]).Pairwise Agree ↔
        ∀ ring ∈ past, Agree ring (call.perform live cell) := by
      simp [pairwise_append, stable]
    rw [lived, NeverReuses, ← perform_agrees_iff stable here, ← grown, append_cons]
    constructor
    · intro agree
      have front := agree.sublist (sublist_append_left _ _)
      exact ⟨front, (ih front (by simp)).mp agree⟩
    · rintro ⟨front, never⟩
      exact (ih front (by simp)).mpr never

end

/-- Over every run of a worker's rings, with reloads and with signals and their reverts, a version
keeps its key exactly if no accepted ring brings a version back with another key. A reload that is
refused changes nothing. -/
theorem versions_keep_keys_iff (payloadConfigured : Bool) (live : LiveRings) (steps : List KeyStep)
    (cell : Cell) :
    ((live cell :: lived cell live (callsOf payloadConfigured live steps)).Pairwise Agree ↔
        NeverReuses cell [live cell] live (callsOf payloadConfigured live steps)) ∧
      ∀ call : ReloadCall, call.accepted live = false → call.perform live = live := by
  refine ⟨lived_agree_iff _ (pairwise_singleton ..) (by simp), fun call refused => ?_⟩
  rcases @reload_cases (live call.cell) call.next with ⟨_, ok, _⟩ | ⟨_, same⟩
  · exact absurd (refused.symm.trans ok) (by simp)
  · rw [ReloadCall.perform, same, Function.update_eq_self]

/-- Three rings of which the second drops a version and the third gives it another key. -/
def reusedRings : KeyRing × KeyRing × KeyRing :=
  let old : VersionedKey := ⟨2, List.replicate 32 2⟩
  (⟨old, [⟨1, List.replicate 32 1⟩], by decide +kernel⟩, ⟨old, [], by decide +kernel⟩,
    ⟨⟨1, List.replicate 32 3⟩, [old], by decide +kernel⟩)

theorem dropped_version_returns_with_another_key :
    ¬ (∀ (payloadConfigured : Bool) (live : LiveRings) (steps : List KeyStep) (cell : Cell),
      (live cell :: lived cell live (callsOf payloadConfigured live steps)).Pairwise Agree) := by
  intro agree
  have rings := agree true (fun _ => some reusedRings.1)
    [.reload ⟨.payload, some reusedRings.2.1⟩, .reload ⟨.payload, some reusedRings.2.2⟩] .payload
  have last := (pairwise_cons.mp rings).1 (some reusedRings.2.2)
    (mem_of_getElem? (i := 1) rfl)
  exact absurd (last 1 _ _ rfl rfl) (by decide +kernel)

end Cleat.KeyRings
