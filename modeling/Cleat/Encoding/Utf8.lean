import Mathlib.Data.List.Basic

/-!
# Text that is not quite UTF-8

An encoder that must produce well-formed text replaces every byte that does not belong to
a well-formed UTF-8 sequence by the replacement character. `toValidUTF8` is that
replacement, byte by byte from the left: where a sequence starts, its length is known from
its first bytes, and a byte with which no sequence starts is replaced.

The replacement character takes three bytes and a replaced byte one, so a byte string
survives exactly if it is well formed.
-/
namespace Encoding

open List

/-- The number of bytes that a first byte announces. -/
def announced (first : UInt8) : Option Nat :=
  if first < 0x80 then some 0
  else if 0xC2 ≤ first && first ≤ 0xDF then some 1
  else if 0xE0 ≤ first && first ≤ 0xEF then some 2
  else if 0xF0 ≤ first && first ≤ 0xF4 then some 3
  else none

/-- A byte that continues a sequence. -/
def continues (byte : UInt8) : Bool := 0x80 ≤ byte && byte ≤ 0xBF

/-- A second byte that may follow a first one. Overlong sequences, surrogates and values
beyond the last character are excluded here. -/
def mayFollow (first second : UInt8) : Bool :=
  if first = 0xE0 then 0xA0 ≤ second && second ≤ 0xBF
  else if first = 0xED then 0x80 ≤ second && second ≤ 0x9F
  else if first = 0xF0 then 0x90 ≤ second && second ≤ 0xBF
  else if first = 0xF4 then 0x80 ≤ second && second ≤ 0x8F
  else continues second

/-- Bytes that complete the sequence of a first one. -/
def completes (first : UInt8) : List UInt8 → Bool
  | [] => true
  | second :: rest => mayFollow first second && rest.all continues

/-- The number of bytes that follow the first one in the well-formed sequence at the front
of a byte string, if there is one. -/
def followers (first : UInt8) (rest : List UInt8) : Option Nat :=
  (announced first).filter fun more =>
    (rest.take more).length = more && completes first (rest.take more)

/-- The replacement character. -/
def replacement : List UInt8 := [0xEF, 0xBF, 0xBD]

/-- The rest of a byte string, of which the first bytes still belong to a sequence that has
been accepted. -/
def replaceInvalid : Nat → List UInt8 → List UInt8
  | _, [] => []
  | accepted + 1, byte :: rest => byte :: replaceInvalid accepted rest
  | 0, byte :: rest =>
    match followers byte rest with
    | some more => byte :: replaceInvalid more rest
    | none => replacement ++ replaceInvalid 0 rest

attribute [local simp] replaceInvalid

/-- The number of bytes that are replaced. -/
def invalidBytes : Nat → List UInt8 → Nat
  | _, [] => 0
  | accepted + 1, _ :: rest => invalidBytes accepted rest
  | 0, byte :: rest =>
    match followers byte rest with
    | some more => invalidBytes more rest
    | none => invalidBytes 0 rest + 1

attribute [local simp] invalidBytes

/-- A byte string with every byte that belongs to no well-formed sequence replaced. -/
def toValidUTF8 (bytes : List UInt8) : List UInt8 := replaceInvalid 0 bytes

/-- A byte string that consists of well-formed sequences. -/
def validUTF8 (bytes : List UInt8) : Bool := invalidBytes 0 bytes = 0

theorem length_replaceInvalid (accepted : Nat) (bytes : List UInt8) :
    (replaceInvalid accepted bytes).length = bytes.length + 2 * invalidBytes accepted bytes := by
  induction bytes generalizing accepted with
  | nil => simp
  | cons byte rest ih =>
    cases accepted with
    | succ accepted =>
      simp only [replaceInvalid, invalidBytes, length_cons, ih]
      omega
    | zero =>
      cases found : followers byte rest with
      | some more =>
        simp only [replaceInvalid, invalidBytes, found, length_cons, ih]
        omega
      | none =>
        simp only [replaceInvalid, invalidBytes, found, length_append, length_cons,
          replacement, length_nil, ih]
        omega

theorem replaceInvalid_eq_self {accepted : Nat} {bytes : List UInt8}
    (valid : invalidBytes accepted bytes = 0) : replaceInvalid accepted bytes = bytes := by
  induction bytes generalizing accepted with
  | nil => simp
  | cons byte rest ih =>
    cases accepted with
    | succ accepted =>
      rw [replaceInvalid, ih]
      simpa using valid
    | zero =>
      cases found : followers byte rest with
      | some more =>
        simp only [invalidBytes, found] at valid
        simp only [replaceInvalid, found, ih valid]
      | none => simp [found] at valid

/-- A byte string survives the replacement exactly if it is well formed. -/
theorem toValidUTF8_eq_self_iff {bytes : List UInt8} :
    toValidUTF8 bytes = bytes ↔ validUTF8 bytes = true := by
  simp only [validUTF8, decide_eq_true_eq]
  constructor
  · intro same
    have counted := length_replaceInvalid 0 bytes
    rw [show replaceInvalid 0 bytes = bytes from same] at counted
    omega
  · exact replaceInvalid_eq_self

/-- Whether a sequence starts is decided by the bytes that belong to it. -/
theorem followers_congr {first : UInt8} {rest other : List UInt8} {more : Nat}
    (found : followers first rest = some more) (same : other.take more = rest.take more) :
    followers first other = some more := by
  obtain ⟨lead, complete⟩ := Option.filter_eq_some_iff.mp found
  rw [followers, Option.filter_eq_some_iff]
  exact ⟨lead, by rw [same]; exact complete⟩

theorem take_replaceInvalid (accepted : Nat) (bytes : List UInt8) :
    (replaceInvalid accepted bytes).take accepted = bytes.take accepted := by
  induction bytes generalizing accepted with
  | nil => simp
  | cons byte rest ih =>
    cases accepted with
    | zero => simp
    | succ accepted => simp [ih]

theorem invalidBytes_replaceInvalid (accepted : Nat) (bytes : List UInt8) :
    invalidBytes accepted (replaceInvalid accepted bytes) = 0 := by
  induction bytes generalizing accepted with
  | nil => cases accepted <;> rfl
  | cons byte rest ih =>
    cases accepted with
    | succ accepted => simp [ih]
    | zero =>
      cases found : followers byte rest with
      | some more =>
        have again := followers_congr found (take_replaceInvalid more rest)
        simp [found, again, ih]
      | none =>
        have sequence : followers 0xEF (0xBF :: 0xBD :: replaceInvalid 0 rest) = some 2 := rfl
        simp [replacement, found, sequence, ih]

/-- What the replacement yields is well formed. -/
theorem validUTF8_toValidUTF8 (bytes : List UInt8) : validUTF8 (toValidUTF8 bytes) = true := by
  simp [validUTF8, toValidUTF8, invalidBytes_replaceInvalid]

theorem toValidUTF8_idem (bytes : List UInt8) :
    toValidUTF8 (toValidUTF8 bytes) = toValidUTF8 bytes :=
  toValidUTF8_eq_self_iff.mpr (validUTF8_toValidUTF8 bytes)

theorem toValidUTF8_eq_nil_iff {bytes : List UInt8} : toValidUTF8 bytes = [] ↔ bytes = [] := by
  rw [← length_eq_zero_iff, ← length_eq_zero_iff, toValidUTF8, length_replaceInvalid]
  constructor
  · omega
  · intro empty
    rw [length_eq_zero_iff] at empty
    simp [empty]

theorem validUTF8_of_ascii {bytes : List UInt8} (ascii : ∀ byte ∈ bytes, byte < 0x80) :
    validUTF8 bytes = true := by
  rw [validUTF8, decide_eq_true_eq]
  induction bytes with
  | nil => rfl
  | cons byte rest ih =>
    have single : followers byte rest = some 0 := by
      simp [followers, announced, ascii byte mem_cons_self, completes]
    simp only [invalidBytes, single]
    exact ih fun other member => ascii other (mem_cons_of_mem _ member)

example : toValidUTF8 [0x61, 0xFF, 0xC3, 0xA9] = [0x61, 0xEF, 0xBF, 0xBD, 0xC3, 0xA9] := by decide

end Encoding
