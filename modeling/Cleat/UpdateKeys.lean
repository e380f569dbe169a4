import Cleat.Updates

/-!
# Taking the keys of update requests apart

A key packs the names of an update, of its request and of the promise of its caller, which are
arbitrary bytes. Keys have been written in three forms, and the reader tells them apart by what it
finds: a zero byte, the mark of the current form, or neither. The lengths in a key are read back
exactly. A zero byte in one of the names of the current form is taken for the separator of the
oldest one.
-/
namespace Cleat

open List

/-- Bytes with their length in front. -/
def lengthPrefixedBytes (text : Bytes) : Bytes := bytesOf (toString text.length) ++ 58 :: text

/-- The key of a request, whatever bytes its names are made of. -/
def updateKey (parts : UpdateKey) : Bytes :=
  [117, 51, 58] ++ (lengthPrefixedBytes parts.updateName ++
    (lengthPrefixedBytes parts.requestID ++ parts.promiseID))

/-- The second form of a key. It does not name the request. -/
def prefixedKey (updateName promiseID : Bytes) : Bytes := lengthPrefixedBytes updateName ++ promiseID

/-- The first form of a key. -/
def separatedKey (updateName promiseID : Bytes) : Bytes := updateName ++ 0 :: promiseID

/-- The bytes of a digit. -/
theorem utf8EncodeChar_digit {char : Char} (digit : char.isDigit = true) :
    String.utf8EncodeChar char = [char.val.toUInt8] := by
  refine String.utf8EncodeChar_eq_singleton (Char.utf8Size_eq_one_iff.mpr ?_)
  simp only [Char.isDigit, Bool.and_eq_true, decide_eq_true_eq] at digit
  exact UInt32.le_trans digit.2 (by decide)

theorem bytesOf_digits {digits : List Char} (decimal : ∀ char ∈ digits, char.isDigit = true) :
    bytesOf (String.ofList digits) = digits.map fun char => char.val.toUInt8 := by
  have encoded : digits.flatMap String.utf8EncodeChar =
      digits.flatMap fun char => [char.val.toUInt8] :=
    flatMap_congr fun char member => utf8EncodeChar_digit (decimal char member)
  rw [bytesOf, String.toUTF8, String.toByteArray_ofList, utf8Encode, encoded,
    ← map_eq_flatMap]
  simp

theorem toNat_digit {char : Char} (digit : char.isDigit = true) :
    48 ≤ char.val.toUInt8.toNat ∧ char.val.toUInt8.toNat ≤ 57 ∧
      char.val.toUInt8.toNat = char.toNat := by
  simp only [Char.isDigit, Bool.and_eq_true, decide_eq_true_eq, UInt32.le_iff_toNat_le] at digit
  have least : 48 ≤ char.val.toNat := digit.1
  have most : char.val.toNat ≤ 57 := digit.2
  have small : char.val.toUInt8.toNat = char.val.toNat := by
    rw [UInt32.toNat_toUInt8]
    omega
  rw [small]
  exact ⟨least, most, rfl⟩

/-- Decimal digits are read as the number they spell. -/
theorem decimal_digits {digits : List Char} (decimals : ∀ char ∈ digits, char.isDigit = true)
    (value : Nat) :
    decimal (digits.map fun char => char.val.toUInt8) value =
      some (Nat.ofDigitChars 10 digits value) := by
  induction digits generalizing value with
  | nil => rfl
  | cons char digits ih =>
    rw [forall_mem_cons] at decimals
    obtain ⟨least, most, same⟩ := toNat_digit decimals.1
    have inside : (48 ≤ char.val.toUInt8 && char.val.toUInt8 ≤ 57) = true := by
      simpa [UInt8.le_iff_toNat_le] using ⟨least, most⟩
    rw [map_cons, decimal, if_pos inside, ih decimals.2, same]
    rfl

/-- What is in front of a text: a number without a colon or a zero byte, which is read back. -/
theorem lengthOf_toString (length : Nat) :
    lengthOf (bytesOf (toString length)) = some length ∧
      ∀ byte ∈ bytesOf (toString length), byte ≠ 58 ∧ byte ≠ 0 := by
  have decimals : ∀ char ∈ Nat.toDigits 10 length, char.isDigit = true :=
    fun char member => Nat.isDigit_of_mem_toDigits (by decide) (by decide) member
  have value : Nat.ofDigitChars 10 (Nat.toDigits 10 length) 0 = length :=
    Nat.ofDigitChars_toDigits (by decide) (by decide)
  have bytes : bytesOf (toString length) =
      (Nat.toDigits 10 length).map fun char => char.val.toUInt8 := bytesOf_digits decimals
  have apart : ∀ byte ∈ bytesOf (toString length),
      48 ≤ byte.toNat ∧ byte.toNat ≤ 57 := by
    rw [bytes, forall_mem_map]
    exact fun char member => ⟨(toNat_digit (decimals char member)).1,
      (toNat_digit (decimals char member)).2.1⟩
  constructor
  · have read : decimal (bytesOf (toString length)) 0 = some length := by
      rw [bytes, decimal_digits decimals, value]
    have some : bytesOf (toString length) ≠ [] := by
      rw [bytes, Ne, map_eq_nil_iff]
      exact Nat.toDigits_ne_nil
    obtain ⟨byte, rest, spelled⟩ := exists_cons_of_ne_nil some
    rw [spelled] at read apart ⊢
    obtain ⟨least, most⟩ := apart byte mem_cons_self
    have unsigned : byte ≠ 43 ∧ byte ≠ 45 := by
      constructor <;> rintro rfl <;> revert least <;> decide
    simp only [lengthOf, unsigned.1, unsigned.2, if_false, read]
  · intro byte member
    obtain ⟨least, most⟩ := apart byte member
    constructor <;> rintro rfl <;> revert least most <;> decide

/-- The host fails on a key exactly if its length is a number of 64 bits and the place behind the
text is not: that place wraps around to a negative number, which no check refuses. -/
theorem cutPanics_iff {key : Bytes} (fits : key.length < 2 ^ 63) :
    cutPanics key = true ↔ key.dropWhile (· ≠ 58) ≠ [] ∧
      ∃ length, lengthOf (key.takeWhile (· ≠ 58)) = some length ∧ length < 2 ^ 63 ∧
        2 ^ 63 ≤ (key.takeWhile (· ≠ 58)).length + 1 + length := by
  have inside := (takeWhile_sublist (l := key) fun byte => decide (byte ≠ 58)).length_le
  unfold cutPanics cutEnd int64
  generalize key.takeWhile (· ≠ 58) = front at inside ⊢
  cases key.dropWhile (· ≠ 58) with
  | nil => simp
  | cons colon rest =>
    cases lengthOf front with
    | none => simp
    | some length =>
      simp only [Int.bmod_def, Bool.and_eq_true, decide_eq_true_eq, ne_eq, reduceCtorEq,
        not_false_eq_true, true_and, Option.some.injEq, exists_eq_left']
      omega

section

variable (text rest : Bytes)

/-- A prefixed text is cut where its length ends. -/
theorem takeWhile_lengthPrefixedBytes :
    (lengthPrefixedBytes text ++ rest).takeWhile (· ≠ 58) = bytesOf (toString text.length) ∧
      (lengthPrefixedBytes text ++ rest).dropWhile (· ≠ 58) = 58 :: (text ++ rest) := by
  have digits : ∀ byte ∈ bytesOf (toString text.length), decide (byte ≠ 58) = true :=
    fun byte member => decide_eq_true ((lengthOf_toString text.length).2 byte member).1
  rw [lengthPrefixedBytes, append_assoc, takeWhile_append_of_pos digits,
    dropWhile_append_of_pos digits]
  simp

theorem cutLengthPrefixed_lengthPrefixedBytes :
    cutLengthPrefixed (lengthPrefixedBytes text ++ rest) = some (text, rest) := by
  obtain ⟨front, behind⟩ := takeWhile_lengthPrefixedBytes text rest
  simp only [cutLengthPrefixed, front, behind, (lengthOf_toString text.length).1]
  simp

theorem cutPanics_lengthPrefixedBytes (fits : (lengthPrefixedBytes text ++ rest).length < 2 ^ 63) :
    cutPanics (lengthPrefixedBytes text ++ rest) = false := by
  obtain ⟨front, behind⟩ := takeWhile_lengthPrefixedBytes text rest
  refine Bool.eq_false_iff.mpr fun panics => ?_
  obtain ⟨_, length, read, _, beyond⟩ := (cutPanics_iff fits).mp panics
  rw [front] at read beyond
  cases (lengthOf_toString text.length).1.symm.trans read
  simp only [lengthPrefixedBytes, length_append, length_cons] at fits
  omega

theorem zero_mem_lengthPrefixedBytes : 0 ∈ lengthPrefixedBytes text ↔ 0 ∈ text := by
  have digits : (0 : UInt8) ∉ bytesOf (toString text.length) :=
    fun member => ((lengthOf_toString text.length).2 0 member).2 rfl
  have colon : (0 : UInt8) ≠ 58 := by decide
  simp only [lengthPrefixedBytes, mem_append, mem_cons, digits, colon, false_or]

end

/-- A key is taken apart into the parts, and if it fits into memory the host does not fail. -/
def Splits (key : Bytes) (parts : UpdateKey) : Prop :=
  splitUpdateRequestKey key = parts ∧ (key.length < 2 ^ 63 → splitPanics key = false)

/-- No name of the request has a zero byte. -/
def UpdateKey.ZeroFree (parts : UpdateKey) : Prop :=
  0 ∉ parts.updateName ∧ 0 ∉ parts.requestID ∧ 0 ∉ parts.promiseID

theorem zero_mem_updateKey (parts : UpdateKey) : 0 ∉ updateKey parts ↔ parts.ZeroFree := by
  simp [updateKey, UpdateKey.ZeroFree, zero_mem_lengthPrefixedBytes]

/-- The current form is taken apart unless the first zero byte is taken for a separator. What is in
front of that byte is longer than the name, or has no zero byte where the name has one. -/
theorem splits_updateKey_iff (parts : UpdateKey) :
    Splits (updateKey parts) parts ↔ parts.ZeroFree := by
  rw [← zero_mem_updateKey]
  constructor
  · rintro ⟨split, _⟩ zero
    rw [splitUpdateRequestKey, if_pos (contains_iff_mem.mpr zero)] at split
    have name : (updateKey parts).takeWhile (· ≠ 0) = parts.updateName :=
      congrArg UpdateKey.updateName split
    by_cases inside : 0 ∈ parts.updateName
    · rw [← name] at inside
      have passed := all_eq_true.mp all_takeWhile 0 inside
      cases passed
    · have front : updateKey parts = ([117, 51, 58] ++ lengthPrefixedBytes parts.updateName) ++
          (lengthPrefixedBytes parts.requestID ++ parts.promiseID) := by
        simp [updateKey]
      have free : ∀ byte ∈ [117, 51, 58] ++ lengthPrefixedBytes parts.updateName,
          decide (byte ≠ 0) = true := by
        intro byte member
        refine decide_eq_true fun zero => ?_
        subst zero
        simp [zero_mem_lengthPrefixedBytes, inside] at member
      have longer := congrArg length name
      rw [front, takeWhile_append_of_pos free] at longer
      simp only [lengthPrefixedBytes, length_append, length_cons] at longer
      omega
  · intro free
    have absent : (updateKey parts).contains 0 = false := by simpa using free
    have mark : (updateKey parts).take 3 = [117, 51, 58] := rfl
    have rest : (updateKey parts).drop 3 = lengthPrefixedBytes parts.updateName ++
      (lengthPrefixedBytes parts.requestID ++ parts.promiseID) := rfl
    constructor
    · simp only [splitUpdateRequestKey, absent, mark, rest, Bool.false_eq_true, if_false, if_true,
        cutLengthPrefixed_lengthPrefixedBytes]
    · intro fits
      simp only [updateKey, length_append, length_cons, length_nil] at fits
      have first := cutPanics_lengthPrefixedBytes parts.updateName
        (lengthPrefixedBytes parts.requestID ++ parts.promiseID)
        (by simp only [length_append]; omega)
      have second := cutPanics_lengthPrefixedBytes parts.requestID parts.promiseID
        (by simp only [length_append]; omega)
      simp only [splitPanics, absent, mark, rest, Bool.false_eq_true, if_false, if_true,
        cutLengthPrefixed_lengthPrefixedBytes, first, second, Bool.or_self]

theorem splits_prefixedKey {updateName promiseID : Bytes} (free : 0 ∉ updateName)
    (free' : 0 ∉ promiseID) :
    Splits (prefixedKey updateName promiseID) ⟨updateName, [], promiseID⟩ := by
  have absent : (prefixedKey updateName promiseID).contains 0 = false := by
    simp [prefixedKey, zero_mem_lengthPrefixedBytes, free, free']
  have unmarked : (prefixedKey updateName promiseID).take 3 ≠ [117, 51, 58] := by
    intro marked
    have digits := (takeWhile_lengthPrefixedBytes updateName promiseID).1
    rw [← take_append_drop 3 (lengthPrefixedBytes updateName ++ promiseID)] at digits
    rw [show (lengthPrefixedBytes updateName ++ promiseID).take 3 = _ from marked] at digits
    have read := (lengthOf_toString updateName.length).1
    rw [← digits] at read
    revert read
    simp [lengthOf, decimal]
  constructor
  · simp only [splitUpdateRequestKey, absent, unmarked, Bool.false_eq_true, if_false]
    rw [prefixedKey, cutLengthPrefixed_lengthPrefixedBytes]
  · intro fits
    simp only [splitPanics, absent, unmarked, Bool.false_eq_true, if_false]
    exact cutPanics_lengthPrefixedBytes updateName promiseID fits

theorem splits_separatedKey {updateName promiseID : Bytes} (free : 0 ∉ updateName) :
    Splits (separatedKey updateName promiseID) ⟨updateName, [], promiseID⟩ := by
  have present : (separatedKey updateName promiseID).contains 0 = true := by simp [separatedKey]
  have passed : ∀ byte ∈ updateName, decide (byte ≠ 0) = true :=
    fun byte member => decide_eq_true fun zero => free (zero ▸ member)
  constructor
  · rw [splitUpdateRequestKey, if_pos present, separatedKey, takeWhile_append_of_pos passed,
      dropWhile_append_of_pos passed]
    simp
  · simp only [splitPanics, present, if_true, implies_true]

/-- The model's keys are those of the bytes of the names. -/
theorem bytesOf_updateRequestKey (request : UpdateRequestInfo) :
    bytesOf (updateRequestKey request) =
      updateKey ⟨bytesOf request.updateName, bytesOf request.requestID,
        bytesOf request.promiseID⟩ := by
  have append (one other : String) : bytesOf (one ++ other) = bytesOf one ++ bytesOf other := by
    simp [bytesOf, String.toUTF8]
  have mark : bytesOf "u3:" = [117, 51, 58] := by decide +kernel
  have colon : bytesOf ":" = [58] := by decide +kernel
  simp [updateRequestKey, lengthPrefixed, append, mark, colon, updateKey, lengthPrefixedBytes]

/-- A key of the current form is taken apart into the names it was made of exactly if none of them
has a zero byte. Keys of the two older forms are taken apart if they were made of names without
one. -/
theorem update_keys_unambiguous_iff (request : UpdateRequestInfo) (parts : UpdateKey)
    (updateName promiseID : Bytes) :
    bytesOf (updateRequestKey request) =
        updateKey ⟨bytesOf request.updateName, bytesOf request.requestID,
          bytesOf request.promiseID⟩ ∧
      (Splits (updateKey parts) parts ↔ parts.ZeroFree) ∧
      (0 ∉ updateName → 0 ∉ promiseID →
        Splits (prefixedKey updateName promiseID) ⟨updateName, [], promiseID⟩ ∧
          Splits (separatedKey updateName promiseID) ⟨updateName, [], promiseID⟩) :=
  ⟨bytesOf_updateRequestKey request, splits_updateKey_iff parts,
    fun free free' => ⟨splits_prefixedKey free free', splits_separatedKey free⟩⟩

/-- The request for an update whose name has a zero byte is settled under another name. -/
theorem zero_byte_splits_key :
    ¬Splits (bytesOf (updateRequestKey ⟨"ureq-1", "a\x00b", "", "p-1"⟩))
      ⟨bytesOf "a\x00b", bytesOf "ureq-1", bytesOf "p-1"⟩ := by
  rintro ⟨split, _⟩
  revert split
  decide +kernel

end Cleat
