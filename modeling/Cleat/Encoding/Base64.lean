import Mathlib.Data.List.Basic

/-!
# Base64

The standard alphabet with padding: three bytes become four symbols of six bits, and a last
group of one or two bytes is filled up with padding. The decoder skips line breaks, as usual,
and does not look at the bits that padding leaves over.

What matters to a store is that every byte string comes back and that the encoded text is
plain ASCII.
-/
namespace Encoding

open Option

/-- The symbol for six bits. -/
def symbol (bits : Nat) : UInt8 :=
  if bits < 26 then UInt8.ofNat (bits + 65)
  else if bits < 52 then UInt8.ofNat (bits + 71)
  else if bits < 62 then UInt8.ofNat (bits - 4)
  else if bits = 62 then 43
  else 47

def padding : UInt8 := 61

/-- The six bits of a symbol. -/
def sextet (byte : UInt8) : Option Nat :=
  if 65 ≤ byte ∧ byte ≤ 90 then some (byte.toNat - 65)
  else if 97 ≤ byte ∧ byte ≤ 122 then some (byte.toNat - 71)
  else if 48 ≤ byte ∧ byte ≤ 57 then some (byte.toNat + 4)
  else if byte = 43 then some 62
  else if byte = 47 then some 63
  else none

def encodeBase64 : List UInt8 → List UInt8
  | [] => []
  | [a] => [symbol (a.toNat / 4), symbol (a.toNat % 4 * 16), padding, padding]
  | [a, b] =>
    [symbol (a.toNat / 4), symbol (a.toNat % 4 * 16 + b.toNat / 16),
      symbol (b.toNat % 16 * 4), padding]
  | a :: b :: c :: rest =>
    symbol (a.toNat / 4) :: symbol (a.toNat % 4 * 16 + b.toNat / 16) ::
      symbol (b.toNat % 16 * 4 + c.toNat / 64) :: symbol (c.toNat % 64) :: encodeBase64 rest

/-- The three bytes of four groups of six bits. -/
def firstByte (p q : Nat) : UInt8 := UInt8.ofNat (p * 4 + q / 16)
def secondByte (q r : Nat) : UInt8 := UInt8.ofNat (q % 16 * 16 + r / 4)
def thirdByte (r s : Nat) : UInt8 := UInt8.ofNat (r % 4 * 64 + s)

/-- The bytes of symbols without line breaks. Padding ends the text. -/
def decodeSymbols : List UInt8 → Option (List UInt8)
  | [] => some []
  | p :: q :: r :: s :: rest => do
      let p ← sextet p
      let q ← sextet q
      if s = padding then
        if rest ≠ [] then none
        else if r = padding then some [firstByte p q]
        else
          let r ← sextet r
          some [firstByte p q, secondByte q r]
      else
        let r ← sextet r
        let s ← sextet s
        let later ← decodeSymbols rest
        some (firstByte p q :: secondByte q r :: thirdByte r s :: later)
  | _ => none

def decodeBase64 (text : List UInt8) : Option (List UInt8) :=
  decodeSymbols (text.filter fun byte => byte ≠ 10 ∧ byte ≠ 13)

theorem sextet_symbol {bits : Nat} (small : bits < 64) : sextet (symbol bits) = some bits := by
  have all : ∀ bits : Fin 64, sextet (symbol bits) = some bits.val := by decide
  exact all ⟨bits, small⟩

theorem symbol_ne_padding {bits : Nat} (small : bits < 64) : symbol bits ≠ padding := by
  have all : ∀ bits : Fin 64, symbol bits ≠ padding := by decide
  exact all ⟨bits, small⟩

/-- A symbol is a printable ASCII character. -/
theorem symbol_printable (bits : Nat) : 32 < symbol bits ∧ symbol bits < 128 := by
  by_cases small : bits < 64
  · have all : ∀ bits : Fin 64, 32 < symbol bits ∧ symbol bits < 128 := by decide
    exact all ⟨bits, small⟩
  · have last : symbol bits = 47 := by
      simp only [symbol]
      rw [if_neg (by omega), if_neg (by omega), if_neg (by omega), if_neg (by omega)]
    rw [last]
    decide

theorem encodeBase64_printable {bytes : List UInt8} {byte : UInt8}
    (member : byte ∈ encodeBase64 bytes) : 32 < byte ∧ byte < 128 := by
  have padded : 32 < padding ∧ padding < 128 := by decide
  fun_induction encodeBase64 bytes with
  | case1 => simp at member
  | case2 | case3 =>
    simp only [List.mem_cons, List.not_mem_nil, or_false] at member
    rcases member with rfl | rfl | rfl | rfl <;> first | exact padded | exact symbol_printable _
  | case4 a b c rest hypothesis =>
    simp only [List.mem_cons] at member
    rcases member with rfl | rfl | rfl | rfl | later
    case inr.inr.inr.inr => exact hypothesis later
    all_goals exact symbol_printable _

theorem byte_eq_ofNat {value : Nat} {byte : UInt8} (same : value = byte.toNat) :
    UInt8.ofNat value = byte := by
  rw [same, UInt8.ofNat_toNat]

theorem decodeSymbols_encodeBase64 (bytes : List UInt8) :
    decodeSymbols (encodeBase64 bytes) = some bytes := by
  have below (byte : UInt8) : byte.toNat < 256 := byte.toNat_lt
  fun_induction encodeBase64 bytes with
  | case1 => rfl
  | case2 a =>
    have bound := below a
    simp only [decodeSymbols, sextet_symbol (show a.toNat / 4 < 64 by omega),
      sextet_symbol (show a.toNat % 4 * 16 < 64 by omega), bind_eq_bind, bind_some,
      ne_eq, not_true_eq_false, if_true, if_false, some.injEq, List.cons.injEq, and_true]
    exact byte_eq_ofNat (by omega)
  | case3 a b =>
    have bound := below a
    have bound' := below b
    simp only [decodeSymbols, sextet_symbol (show a.toNat / 4 < 64 by omega),
      sextet_symbol (show a.toNat % 4 * 16 + b.toNat / 16 < 64 by omega),
      sextet_symbol (show b.toNat % 16 * 4 < 64 by omega),
      symbol_ne_padding (show b.toNat % 16 * 4 < 64 by omega), bind_eq_bind,
      bind_some, ne_eq, not_true_eq_false, if_true, if_false, some.injEq,
      List.cons.injEq, and_true]
    exact ⟨byte_eq_ofNat (by omega), byte_eq_ofNat (by omega)⟩
  | case4 a b c rest hypothesis =>
    have bound := below a
    have bound' := below b
    have bound'' := below c
    simp only [decodeSymbols, sextet_symbol (show a.toNat / 4 < 64 by omega),
      sextet_symbol (show a.toNat % 4 * 16 + b.toNat / 16 < 64 by omega),
      sextet_symbol (show b.toNat % 16 * 4 + c.toNat / 64 < 64 by omega),
      sextet_symbol (show c.toNat % 64 < 64 by omega),
      symbol_ne_padding (show c.toNat % 64 < 64 by omega), hypothesis, bind_eq_bind,
      bind_some, if_false, some.injEq, List.cons.injEq, and_true]
    exact ⟨byte_eq_ofNat (by omega), byte_eq_ofNat (by omega), byte_eq_ofNat (by omega)⟩

/-- Every byte string comes back from its encoding. -/
theorem decodeBase64_encodeBase64 (bytes : List UInt8) :
    decodeBase64 (encodeBase64 bytes) = some bytes := by
  have unbroken : (encodeBase64 bytes).filter (fun byte => byte ≠ 10 ∧ byte ≠ 13) =
      encodeBase64 bytes := by
    refine List.filter_eq_self.mpr fun byte member => ?_
    have printable := encodeBase64_printable member
    simp only [decide_eq_true_eq]
    constructor
    · rintro rfl
      exact absurd printable.1 (by decide)
    · rintro rfl
      exact absurd printable.1 (by decide)
  rw [decodeBase64, unbroken, decodeSymbols_encodeBase64]

end Encoding
