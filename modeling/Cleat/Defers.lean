import Mathlib.Data.List.Induction
import Mathlib.Algebra.Group.Int.Defs
import Mathlib.Data.List.Sort
import Mathlib.Data.List.TakeWhile
import Cleat.Lifecycle

/-!
# The pass over registered defers

When the guest was stopped before it could run its own defers, the engine runs them. The session
keeps them in a map from their names to their descriptions, and the pass orders them by the step
number that it reads out of each name.

A defer is to run before those that were registered earlier. The pass sorts the numbers upwards,
so that it runs them in the order of their registration.
-/
namespace Cleat

open List

/-! ## The number in a name -/

/-- The characters that a scan skips in front of a number. -/
def isSpace (char : Char) : Bool :=
  [(0x09, 0x0d), (0x20, 0x20), (0x85, 0x85), (0xa0, 0xa0), (0x1680, 0x1680), (0x2000, 0x200a),
    (0x2028, 0x2029), (0x202f, 0x202f), (0x205f, 0x205f), (0x3000, 0x3000)].any
    fun (first, last) => first ≤ char.toNat && char.toNat ≤ last

/-- Scan a number in decimal digits. A line end among the spaces before it is refused, and what
follows the digits is not read. -/
def scanInt (text : List Char) : Option Int :=
  let (negative, unsigned) :=
    match text.dropWhile isSpace with
    | '-' :: rest => (true, rest)
    | '+' :: rest => (false, rest)
    | rest => (false, rest)
  let digits := unsigned.takeWhile Char.isDigit
  let magnitude : Int := Nat.ofDigitChars 10 digits 0
  let value := if negative then -magnitude else magnitude
  if '\n' ∈ text.takeWhile isSpace ∨ digits = [] ∨ value < -2 ^ 63 ∨ 2 ^ 63 ≤ value then none
  else some value

/-- The step number in the name of a defer, and -1 if the name has another form. -/
def parseDeferStepNo (id : String) : Int :=
  match id.toList with
  | 'd' :: 'e' :: 'f' :: 'e' :: 'r' :: '-' :: rest => (scanInt rest).getD (-1)
  | _ => -1

/-! ## The pass -/

/-- The defers that a history registered, by name. A later record of a name replaces the
description. -/
def deferralsFromHistory (history : History) : List (String × String) :=
  history.foldl (fun defs record =>
    if record.eventType = .defer then
      defs.filter (·.1 ≠ record.deferID) ++ [(record.deferID, record.deferDescription)]
    else defs) []

structure DefEntry where
  id : String
  desc : String
  stepNo : Int
deriving DecidableEq, Repr

/-- Why the call of a defer's export fails. The module does not have the export, as no module of
an SDK has; or the call is rejected before the export runs, for its signature or because the
budget of the pass is used up; or the export ran and trapped. -/
inductive DeferError where
  | exportNotFound
  | rejected (message : String)
  | trapped (message : String)
deriving DecidableEq, Repr

/-- An export with this answer has run, to its end or into a trap. -/
def hasRun : Except DeferError Unit → Bool
  | .error .exportNotFound => false
  | .error (.rejected _) => false
  | _ => true

/-- What the pass does: it calls an export of the guest, with this answer, and logs an error. -/
inductive DeferAct where
  | runDefer (deferName : String) (answer : Except DeferError Unit)
  | debug (deferID description deferName : String)
  | warn (deferID description deferName error : String)
deriving DecidableEq, Repr

def deferName (id : String) : String := "cleat_defer_" ++ id

/-- The entries in the order in which the pass runs them. The map gives them in any order, and
the sort leaves open how it orders equal numbers. -/
def deferOrder (deferrals : List (String × String)) : List DefEntry :=
  (deferrals.map fun (id, desc) => ⟨id, desc, parseDeferStepNo id⟩).insertionSort
    fun entry other => entry.stepNo ≤ other.stepNo

/-- The pass over the defers in the order in which the map gives them. `call` answers a call of
an export, which may come after the budget of the pass. Its error is only logged. -/
def runDefers (call : String → Except DeferError Unit) (wasmBytes : Option Bytes)
    (deferrals : List (String × String)) : List DeferAct :=
  (deferOrder deferrals).flatMap fun entry =>
    let name := deferName entry.id
    if wasmBytes.isNone then []
    else
      .runDefer name (call name) ::
        match call name with
        | .ok _ => []
        | .error .exportNotFound => [.debug entry.id entry.desc name]
        | .error (.rejected message) => [.warn entry.id entry.desc name message]
        | .error (.trapped message) => [.warn entry.id entry.desc name message]

/-- The exports that ran, in their order. A call that found no export or was rejected ran none. -/
def executed (acts : List DeferAct) : List String :=
  acts.filterMap fun act =>
    match act with
    | .runDefer name answer => if hasRun answer then some name else none
    | _ => none

/-! ## Names of registered defers -/

/-- The name under which a defer is registered at a step. -/
def deferIDAt (step : Nat) : String := s!"defer-{step}"

/-- The steps at which a history registered defers. -/
def deferSteps (history : History) : List Nat :=
  (history.filter (·.eventType = .defer)).map (·.step)

/-- A history of one run: a defer has the name of its step, the steps increase, and they are
within the range of the step counter. -/
structure RegistersDefers (history : History) : Prop where
  named : ∀ record ∈ history, record.eventType = .defer → record.deferID = deferIDAt record.step
  increasing : (deferSteps history).Pairwise (· < ·)
  bounded : ∀ step ∈ deferSteps history, step < 2 ^ 63

theorem isSpace_digit {char : Char} (digit : char.isDigit = true) : isSpace char = false := by
  have range : 48 ≤ char.toNat ∧ char.toNat ≤ 57 := by
    simp only [Char.isDigit, Bool.and_eq_true, decide_eq_true_eq] at digit
    exact ⟨UInt32.le_iff_toNat_le.mp digit.1, UInt32.le_iff_toNat_le.mp digit.2⟩
  simp [isSpace]
  omega

theorem scanInt_toDigits {step : Nat} (bounded : step < 2 ^ 63) :
    scanInt (Nat.toDigits 10 step) = some (step : Int) := by
  have digits : ∀ char ∈ Nat.toDigits 10 step, char.isDigit = true :=
    fun char member => Nat.isDigit_of_mem_toDigits (by decide) (by decide) member
  have value : Nat.ofDigitChars 10 (Nat.toDigits 10 step) 0 = step :=
    Nat.ofDigitChars_toDigits (by decide) (by decide)
  cases spelled : Nat.toDigits 10 step with
  | nil => exact absurd spelled Nat.toDigits_ne_nil
  | cons char rest =>
    rw [spelled] at digits value
    have digit := digits char mem_cons_self
    have unsigned : char ≠ '-' ∧ char ≠ '+' := by
      constructor <;> rintro rfl <;> simp at digit
    have taken : (char :: rest).takeWhile Char.isDigit = char :: rest :=
      takeWhile_eq_self_iff.mpr digits
    simp [scanInt, isSpace_digit digit, unsigned, taken, value]
    omega

theorem toList_deferIDAt (step : Nat) :
    (deferIDAt step).toList = "defer-".toList ++ Nat.toDigits 10 step := by
  rw [← String.toList_ofList (l := Nat.toDigits 10 step), ← String.toList_append]
  rfl

theorem parseDeferStepNo_deferIDAt {step : Nat} (bounded : step < 2 ^ 63) :
    parseDeferStepNo (deferIDAt step) = step := by
  simp [parseDeferStepNo, toList_deferIDAt, scanInt_toDigits bounded]

theorem deferName_injective : Function.Injective fun step => deferName (deferIDAt step) := by
  intro one two same
  have texts := congrArg String.toList same
  simp only [deferName, String.toList_append, toList_deferIDAt, append_cancel_left_eq] at texts
  rw [← Nat.ofDigitChars_ten_toDigits (n := one), texts, Nat.ofDigitChars_ten_toDigits]

section Order

variable {history : History}

/-- The entries that a history registers, in the order of their steps. -/
def registered (history : History) : List DefEntry :=
  (history.filter (·.eventType = .defer)).map fun record =>
    ⟨deferIDAt record.step, record.deferDescription, record.step⟩

theorem registered_stepNo : (registered history).map (·.stepNo) =
    (deferSteps history).map Int.ofNat := by
  simp [registered, deferSteps]

/-- No name is registered twice, so the map has one entry for each record. -/
theorem deferralsFromHistory_eq (registers : RegistersDefers history) :
    deferralsFromHistory history = (registered history).map fun entry => (entry.id, entry.desc) := by
  induction history using reverseRecOn with
  | nil => rfl
  | append_singleton history record induction =>
    obtain ⟨named, increasing, bounded⟩ := registers
    simp only [deferSteps, filter_append, map_append] at increasing bounded
    have earlier := induction ⟨fun record member => named record (mem_append_left _ member),
      increasing.sublist (sublist_append_left ..),
      fun step member => bounded step (mem_append_left _ member)⟩
    rw [deferralsFromHistory, foldl_append, ← deferralsFromHistory, earlier]
    by_cases defer : record.eventType = .defer
    · have name := named record (by simp) defer
      have kept : ∀ entry ∈ registered history, entry.id ≠ record.deferID := by
        intro entry member same
        obtain ⟨other, otherMember, rfl⟩ := mem_map.mp member
        have steps : other.step ∈ (history.filter (·.eventType = .defer)).map (·.step) :=
          mem_map_of_mem otherMember
        have before : other.step < record.step :=
          (pairwise_append.mp increasing).2.2 _ steps _ (by simp [defer])
        exact before.ne (deferName_injective (congrArg deferName (same.trans name)))
      have filtered : ((registered history).map fun entry => (entry.id, entry.desc)).filter
          (·.1 ≠ record.deferID) = (registered history).map fun entry => (entry.id, entry.desc) := by
        refine filter_eq_self.mpr fun pair member => ?_
        obtain ⟨entry, here, rfl⟩ := mem_map.mp member
        simpa using kept entry here
      rw [foldl_cons, foldl_nil, if_pos defer, filtered]
      simp [registered, defer, name]
    · simp [defer, registered]

/-- The pass takes the entries in the order of their steps, whatever order the map gives. -/
theorem deferOrder_eq (registers : RegistersDefers history) {deferrals : List (String × String)}
    (order : deferrals.Perm (deferralsFromHistory history)) :
    deferOrder deferrals = registered history := by
  have entries : (deferrals.map fun (id, desc) => (⟨id, desc, parseDeferStepNo id⟩ : DefEntry)).Perm
      (registered history) := by
    rw [deferralsFromHistory_eq registers] at order
    refine (order.map _).trans (List.Perm.of_eq ?_)
    rw [map_map]
    refine (map_congr_left fun entry member => ?_).trans (map_id _)
    obtain ⟨record, recorded, rfl⟩ := mem_map.mp member
    have bounded := registers.bounded record.step (mem_map_of_mem recorded)
    simp [parseDeferStepNo_deferIDAt bounded]
  have increasing : ((registered history).map (·.stepNo)).Pairwise (· < ·) := by
    rw [registered_stepNo]
    exact registers.increasing.map _ fun _ _ less => Int.ofNat_lt.mpr less
  have distinct : ((registered history).map (·.stepNo)).Nodup := increasing.imp fun less => less.ne
  refine List.Perm.eq_of_pairwise (fun entry other member otherMember less more => ?_)
    (pairwise_insertionSort _ _) ((pairwise_map.mp increasing).imp fun less => less.le)
    ((perm_insertionSort _ _).trans entries)
  have member := entries.mem_iff.mp ((perm_insertionSort _ _).mem_iff.mp member)
  exact inj_on_of_nodup_map distinct member otherMember (le_antisymm less more)

theorem executed_runDefers {call : String → Except DeferError Unit} {wasmBytes : Option Bytes}
    {deferrals : List (String × String)} (guest : wasmBytes ≠ none) :
    executed (runDefers call wasmBytes deferrals) =
      ((deferOrder deferrals).map fun entry => deferName entry.id).filter (hasRun <| call ·) := by
  unfold executed runDefers
  induction deferOrder deferrals with
  | nil => rfl
  | cons entry entries induction =>
    simp only [flatMap_cons, filterMap_append, induction, map_cons]
    have present : wasmBytes.isNone = false := by cases wasmBytes <;> simp_all
    simp only [present]
    cases answer : call (deferName entry.id) with
    | ok => simp [answer, hasRun]
    | error error => cases error <;> simp [answer, hasRun]

end Order

/-- The exports run at most once each, and the defer of a later step first. -/
def LastInFirstOut (steps : List Nat) (called : List String) : Prop :=
  called.Sublist (steps.reverse.map fun step => deferName (deferIDAt step))

/-- The steps of the registered defers whose exports run when they are called. -/
def runnable (call : String → Except DeferError Unit) (history : History) : List Nat :=
  (deferSteps history).filter fun step => hasRun (call (deferName (deferIDAt step)))

theorem runnable_sublist (call : String → Except DeferError Unit) (history : History) :
    (runnable call history).Sublist (deferSteps history) :=
  filter_sublist

/-- The pass runs the defers of a history last in, first out exactly if there is no guest to run
them or at most one of them has an export that runs. In whichever order the map gives the entries,
the pass runs them in the order of their registration.

Proof: the numbers in the names are the steps, which increase, so the sorted entries are those of
the history in their order. A list that increases and decreases has one entry at most. -/
theorem lastInFirstOut_iff {history : History} (registers : RegistersDefers history)
    {deferrals : List (String × String)} (order : deferrals.Perm (deferralsFromHistory history))
    (call : String → Except DeferError Unit) (wasmBytes : Option Bytes) :
    LastInFirstOut (deferSteps history) (executed (runDefers call wasmBytes deferrals)) ↔
      wasmBytes = none ∨ (runnable call history).length ≤ 1 := by
  cases wasmBytes with
  | none =>
    have idle : runDefers call none deferrals = [] := flatMap_eq_nil_iff.mpr fun _ _ => rfl
    simp [idle, LastInFirstOut, executed]
  | some wasm =>
    have called : executed (runDefers call (some wasm) deferrals) =
        (runnable call history).map fun step => deferName (deferIDAt step) := by
      rw [executed_runDefers (by simp), deferOrder_eq registers order]
      simp [registered, runnable, deferSteps, filter_map, Function.comp_def]
    rw [LastInFirstOut, called]
    constructor
    · intro lifo
      obtain ⟨steps, sublist, same⟩ := sublist_map_iff.mp lifo
      obtain rfl : runnable call history = steps := map_injective_iff.mpr deferName_injective same
      have decreasing : (runnable call history).Pairwise fun one two => two < one :=
        (pairwise_reverse.mpr registers.increasing).sublist sublist
      have increasing := registers.increasing.sublist (runnable_sublist call history)
      match runnable call history, increasing, decreasing with
      | [], _, _ => simp
      | [step], _, _ => simp
      | first :: second :: _, up, down =>
        have := rel_of_pairwise_cons up mem_cons_self
        have := rel_of_pairwise_cons down mem_cons_self
        omega
    · rintro (absent | few)
      · simp at absent
      · have among := runnable_sublist call history
        match runnable call history, few, among with
        | [], _, _ => simp
        | [step], _, among =>
          refine singleton_sublist.mpr (mem_map_of_mem (mem_reverse.mpr ?_))
          exact singleton_sublist.mp among

/-- A history that registers a defer at its second step. -/
def singleDefer : History :=
  [{ step := 0, eventType := .sideEffect },
    { step := 1, eventType := .defer, deferID := "defer-1", deferDescription := "unlock" }]

theorem lastInFirstOut_singleDefer :
    LastInFirstOut [1] (executed (runDefers (fun _ => .ok ()) (some []) [("defer-1", "unlock")])) ↔
      (some [] : Option Bytes) = none ∨ (runnable (fun _ => .ok ()) singleDefer).length ≤ 1 := by
  have registers : RegistersDefers singleDefer :=
    ⟨by decide +kernel, by decide +kernel, by decide +kernel⟩
  have order : [("defer-1", "unlock")].Perm (deferralsFromHistory singleDefer) := by
    decide +kernel
  exact lastInFirstOut_iff registers order (fun _ => .ok ()) (some [])

/-- Two defers, at the steps 9 and 10, are run in the order in which they were registered. -/
theorem second_defer_runs_last :
    ¬ LastInFirstOut [9, 10] (executed (runDefers (fun _ => .ok ()) (some [])
      (deferralsFromHistory
        [{ step := 9, eventType := .defer, deferID := "defer-9", deferDescription := "unlock" },
          { step := 10, eventType := .defer, deferID := "defer-10",
            deferDescription := "refund" }]))) := by
  unfold LastInFirstOut
  decide +kernel

end Cleat
