import Mathlib.Data.Rat.Defs
import Mathlib.Data.Nat.Log
import Mathlib.Algebra.Group.Nat.Defs

/-!
# JSON values and what a decoder with doubles makes of them

A JSON text denotes a tree. Its numbers are exact, the order of the members of an object does not
matter, and of two members with one name the last one counts. Two trees are the same value if they
are the same tree once the members are in order.

A decoder that reads numbers as doubles and replaces unpaired surrogates in texts makes some
different values equal. Both readings are one traversal with the reading of numbers and texts as
parameters.
-/
namespace Encoding

section Doubles

/-- A quotient rounded to the nearest integer, on a tie to the even one. -/
def roundDiv (numerator denominator : Nat) : Nat :=
  let quotient := numerator / denominator
  let remainder := numerator % denominator
  if 2 * remainder < denominator then quotient
  else if denominator < 2 * remainder then quotient + 1
  else if quotient % 2 = 0 then quotient
  else quotient + 1

/-- The exponent of the largest power of two that is not above a positive fraction. -/
def exponentOf (numerator denominator : Nat) : Int :=
  let estimate := (numerator.log2 : Int) - denominator.log2
  let below :=
    if 0 ≤ estimate then denominator * 2 ^ estimate.toNat ≤ numerator
    else denominator ≤ numerator * 2 ^ (-estimate).toNat
  if below then estimate else estimate - 1

/-- The double nearest to a magnitude, or nothing if that is too large. -/
def nearestDouble (magnitude : Rat) : Option Rat :=
  let numerator := magnitude.num.natAbs
  let denominator := magnitude.den
  if numerator = 0 then some 0
  else
    let exponent := exponentOf numerator denominator
    let unit := (if exponent < -1022 then -1022 else exponent) - 52
    let value : Rat :=
      if 0 ≤ unit then
        ((roundDiv numerator (denominator * 2 ^ unit.toNat) * 2 ^ unit.toNat : Nat) : Rat)
      else mkRat (roundDiv (numerator * 2 ^ (-unit).toNat) denominator) (2 ^ (-unit).toNat)
    if ((2 ^ 1024 : Nat) : Rat) ≤ value then none else some value

end Doubles

section Trees

/-- A text as code points. An escape of an unpaired surrogate is a code point of its own. -/
abbrev Text := List Nat

inductive Json where
  | null
  | bool (value : Bool)
  | number (negative : Bool) (magnitude : Rat)
  | string (text : Text)
  | array (items : List Json)
  | object (members : List (Text × Json))

/-- Adds a member to members in the order of their names, in place of one with the same name. -/
def insertMember (name : Text) (value : Json) : List (Text × Json) → List (Text × Json)
  | [] => [(name, value)]
  | member :: rest =>
    if name = member.1 then (name, value) :: rest
    else if name < member.1 then (name, value) :: member :: rest
    else member :: insertMember name value rest

/-- How numbers and texts are read. -/
structure Reading where
  number : Bool → Rat → Option (Bool × Rat)
  text : Text → Text

mutual

/-- The value that a tree denotes, with the members of objects in order. -/
def Json.read (reading : Reading) : Json → Option Json
  | .null => some .null
  | .bool value => some (.bool value)
  | .number negative magnitude =>
    (reading.number negative magnitude).map fun number => .number number.1 number.2
  | .string text => some (.string (reading.text text))
  | .array items => (readItems reading items).map .array
  | .object members => (readMembers reading members []).map .object

def readItems (reading : Reading) : List Json → Option (List Json)
  | [] => some []
  | item :: rest =>
    (item.read reading).bind fun value => (readItems reading rest).map fun values => value :: values

def readMembers (reading : Reading) :
    List (Text × Json) → List (Text × Json) → Option (List (Text × Json))
  | [], before => some before
  | (name, member) :: rest, before =>
    (member.read reading).bind fun value =>
      readMembers reading rest (insertMember (reading.text name) value before)

end

end Trees

section Readings

/-- The value itself. The sign of a zero does not count. -/
def exactReading : Reading where
  number negative magnitude := some (if magnitude = 0 then (false, 0) else (negative, magnitude))
  text text := text

/-- An unpaired surrogate becomes the replacement character. -/
def repair (text : Text) : Text :=
  text.map fun code => if 0xD800 ≤ code ∧ code < 0xE000 then 0xFFFD else code

/-- Numbers as doubles with their sign. -/
def doubleReading : Reading where
  number negative magnitude := (nearestDouble magnitude).map fun value => (negative, value)
  text := repair

mutual

/-- How deep arrays and objects are nested. -/
def Json.depth : Json → Nat
  | .array items => depthItems items + 1
  | .object members => depthMembers members + 1
  | _ => 0

def depthItems : List Json → Nat
  | [] => 0
  | item :: rest => Nat.max item.depth (depthItems rest)

def depthMembers : List (Text × Json) → Nat
  | [] => 0
  | (_, member) :: rest => Nat.max member.depth (depthMembers rest)

end

end Readings

end Encoding
