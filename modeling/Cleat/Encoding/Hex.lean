import Mathlib.Data.List.Basic

/-!
# Hexadecimal text

Bytes written as two digits each, in lower case. The decoder accepts both cases, and a
comparison that ignores case and a trim of white space, as readers of fixed-width columns
apply them, leave encoded text alone.
-/
namespace Encoding

/-- The digit for four bits. -/
def hexDigit (bits : Nat) : UInt8 :=
  if bits < 10 then UInt8.ofNat (bits + 48) else UInt8.ofNat (bits + 87)

/-- The four bits of a digit. -/
def hexValue (byte : UInt8) : Option Nat :=
  if 48 ≤ byte ∧ byte ≤ 57 then some (byte.toNat - 48)
  else if 97 ≤ byte ∧ byte ≤ 102 then some (byte.toNat - 87)
  else if 65 ≤ byte ∧ byte ≤ 70 then some (byte.toNat - 55)
  else none

def encodeHex : List UInt8 → List UInt8
  | [] => []
  | byte :: rest => hexDigit (byte.toNat / 16) :: hexDigit (byte.toNat % 16) :: encodeHex rest

/-- The bytes of a text of digits. An odd number of digits is refused. -/
def decodeHex : List UInt8 → Option (List UInt8)
  | [] => some []
  | [_] => none
  | high :: low :: rest => do
      let high ← hexValue high
      let low ← hexValue low
      let bytes ← decodeHex rest
      some (UInt8.ofNat (high * 16 + low) :: bytes)

/-- A letter in lower case. -/
def lower (byte : UInt8) : UInt8 := if 65 ≤ byte ∧ byte ≤ 90 then byte + 32 else byte

def toLower (text : List UInt8) : List UInt8 := text.map lower

/-- Equality up to the case of letters. -/
def equalFold (text other : List UInt8) : Bool := toLower text = toLower other

def isSpace (byte : UInt8) : Bool := byte = 32 || (9 ≤ byte && byte ≤ 13)

/-- A text without the white space at its ends. -/
def trimSpace (text : List UInt8) : List UInt8 :=
  ((text.dropWhile isSpace).reverse.dropWhile isSpace).reverse

theorem hexValue_hexDigit {bits : Nat} (small : bits < 16) :
    hexValue (hexDigit bits) = some bits := by
  have all : ∀ digit : Fin 16, hexValue (hexDigit digit) = some digit.val := by decide
  exact all ⟨bits, small⟩

theorem hexDigit_plain {bits : Nat} (small : bits < 16) :
    lower (hexDigit bits) = hexDigit bits ∧ isSpace (hexDigit bits) = false := by
  have all : ∀ digit : Fin 16,
      lower (hexDigit digit) = hexDigit digit ∧ isSpace (hexDigit digit) = false := by decide
  exact all ⟨bits, small⟩

/-- Encoded text is in lower case and holds no white space. -/
theorem encodeHex_plain (bytes : List UInt8) :
    ∀ symbol ∈ encodeHex bytes, lower symbol = symbol ∧ isSpace symbol = false := by
  induction bytes with
  | nil => simp [encodeHex]
  | cons byte rest ih =>
    have bound : byte.toNat < 256 := byte.toNat_lt
    intro symbol member
    simp only [encodeHex, List.mem_cons] at member
    obtain rfl | rfl | later := member
    · exact hexDigit_plain (by omega)
    · exact hexDigit_plain (by omega)
    · exact ih symbol later

@[simp] theorem decodeHex_encodeHex (bytes : List UInt8) :
    decodeHex (encodeHex bytes) = some bytes := by
  induction bytes with
  | nil => rfl
  | cons byte rest ih =>
    have bound : byte.toNat < 256 := byte.toNat_lt
    have whole : byte.toNat / 16 * 16 + byte.toNat % 16 = byte.toNat := by omega
    simp only [encodeHex, decodeHex, hexValue_hexDigit (show byte.toNat / 16 < 16 by omega),
      hexValue_hexDigit (show byte.toNat % 16 < 16 by omega), ih, Option.bind_eq_bind,
      Option.bind_some, whole, UInt8.ofNat_toNat]

theorem trimSpace_of_unspaced {text : List UInt8}
    (unspaced : ∀ symbol ∈ text, isSpace symbol = false) : trimSpace text = text := by
  have keeps : ∀ other : List UInt8, (∀ symbol ∈ other, isSpace symbol = false) →
      other.dropWhile isSpace = other := by
    intro other plain
    cases other with
    | nil => rfl
    | cons symbol rest => exact List.dropWhile_cons_of_neg (by simp [plain symbol])
  rw [trimSpace, keeps text unspaced, keeps text.reverse (by simpa using unspaced),
    List.reverse_reverse]

@[simp] theorem trimSpace_encodeHex (bytes : List UInt8) :
    trimSpace (encodeHex bytes) = encodeHex bytes :=
  trimSpace_of_unspaced fun symbol member => (encodeHex_plain bytes symbol member).2

@[simp] theorem toLower_encodeHex (bytes : List UInt8) :
    toLower (encodeHex bytes) = encodeHex bytes := by
  have same : (encodeHex bytes).map lower = (encodeHex bytes).map id :=
    List.map_congr_left fun symbol member => (encodeHex_plain bytes symbol member).1
  rw [toLower, same, List.map_id]

@[simp] theorem equalFold_self (text : List UInt8) : equalFold text text = true :=
  decide_eq_true rfl

end Encoding
