import EntityQuery.Binary.Basic
import EntityQuery.Text.Digits

/-!
# Numerals in decimal and exponent notation

A numeral is a sign, a string of digits and a power of ten. It is read exactly and rounded once
when a number of a binary format is made of it. A numeral far outside the range of the format is
settled by its size alone, so that an exponent of any length costs nothing.

As a literal a numeral has an optional sign, digits with at most one point among or around them,
and an optional exponent. The words for infinity and for not-a-number are read as well, in any
case.

`Binary.ofText?` formalizes the parsing of a float.
-/

namespace EntityQuery.Binary

open Text

/-- The number `± coefficient · 10 ^ exponent`. -/
structure Numeral where
  negative : Bool
  coefficient : Nat
  exponent : Int
deriving DecidableEq, Repr

/-- An exponent no format here comes near. -/
def Numeral.farExponent : Int := 5000

/-- The number of a format nearest to a numeral. -/
def Numeral.round (F : Format) (n : Numeral) : Binary F :=
  let size := n.exponent + digitCount n.coefficient
  if n.coefficient = 0 then ofCode F n.negative 0
  else if Numeral.farExponent < size then infinite F n.negative
  else if size < -Numeral.farExponent then ofCode F n.negative 0
  else if 0 ≤ n.exponent then ofFraction F n.negative (n.coefficient * tenPow n.exponent.toNat) 1
  else ofFraction F n.negative n.coefficient (tenPow (-n.exponent).toNat)

/-- The numeral of an integer part, a fraction and an exponent, each written in digits. -/
def Numeral.ofParts (negative : Bool) (whole fraction : List Nat) (exponent : Int) : Numeral :=
  ⟨negative, extendBy 0 (whole ++ fraction), exponent - fraction.length⟩

/-- The rest of a text after its leading digits, and those digits. -/
def takeDigits (s : List Char) : List Nat × List Char :=
  ((s.takeWhile isDigit).filterMap digit?, s.dropWhile isDigit)

/-- A fraction: a point and digits, of which there may be none; no point is no fraction. -/
def takeFraction : List Char → List Nat × List Char
  | '.' :: s => takeDigits s
  | s => ([], s)

/-- An exponent: nothing, or the letter and an integer to the end of the text. -/
def exponent? : List Char → Option Int
  | [] => some 0
  | c :: s => if c == 'e' || c == 'E' then integer? s else none

/-- The words that stand for infinity. -/
def infinityWords : List String := ["inf", "infinity"]

/-- A number of a format from an unsigned literal. -/
def magnitude? (F : Format) (negative : Bool) (s : List Char) : Option (Binary F) :=
  let word := String.ofList (s.map Char.toLower)
  if word ∈ infinityWords then some (infinite F negative)
  else if word = "nan" then some (notANumber F negative)
  else
    let (whole, rest) := takeDigits s
    let (fraction, rest) := takeFraction rest
    if whole.isEmpty && fraction.isEmpty then none
    else (exponent? rest).map fun e => (Numeral.ofParts negative whole fraction e).round F

/-- A number of a format from a literal. -/
def ofText? (F : Format) : List Char → Option (Binary F)
  | '-' :: s => magnitude? F true s
  | '+' :: s => magnitude? F false s
  | s => magnitude? F false s

end EntityQuery.Binary
