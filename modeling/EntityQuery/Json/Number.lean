import EntityQuery.Binary.Shortest

/-!
# JSON numbers

A number of JSON is an integer or a float, and the two kinds are different values even where
they are the same number: `1` is no `1.0`. An integer fits 64 bits, with or without a sign; a
float is a finite number of the 64-bit format.

A float is written with the fewest digits that read back, in plain notation if its leading digit
lies between the fifth place after the point and the sixteenth before it, and in exponent
notation otherwise. Plain notation keeps at least one place.

`JsonNumber.toInt64?` and `JsonNumber.toFloat` formalize `as_i64` and `as_f64`.
-/

namespace EntityQuery

open Binary Text

/-- A 64-bit integer, with or without a sign. -/
def FitsInteger (n : Int) : Prop := Int64.minValue.toInt ≤ n ∧ n < UInt64.size

instance (n : Int) : Decidable (FitsInteger n) := inferInstanceAs (Decidable (_ ∧ _))

/-- A number of JSON. -/
inductive JsonNumber where
  /-- A 64-bit integer. -/
  | integer (n : Int) (fits : FitsInteger n)
  /-- A finite float. -/
  | float (x : Binary64) (finite : x.isFinite = true)
deriving DecidableEq

namespace JsonNumber

/-- The integer as a number, if it fits. -/
def ofInt? (n : Int) : Option JsonNumber :=
  if h : FitsInteger n then some (.integer n h) else none

/-- The float as a number, if it is finite. -/
def ofFloat? (x : Binary64) : Option JsonNumber :=
  if h : x.isFinite = true then some (.float x h) else none

/-- A 64-bit signed integer as a number. -/
def ofInt64 (n : Int64) : JsonNumber :=
  .integer n.toInt (by
    have h₁ := n.le_toInt
    have h₂ := n.toInt_lt
    have h₃ : Int64.minValue.toInt = -9223372036854775808 := rfl
    unfold FitsInteger UInt64.size
    omega)

/-- Is it a float? -/
def isFloat : JsonNumber → Bool
  | .integer .. => false
  | .float .. => true

/-- Equality of values: numbers of one kind are equal when they are the same number, so the two
zeros are. -/
def same : JsonNumber → JsonNumber → Bool
  | .integer n _, .integer m _ => n == m
  | .float x _, .float y _ => x.place == y.place
  | _, _ => false

/-- The integer, if it is one and fits 64 bits with a sign. -/
def toInt64? : JsonNumber → Option Int64
  | .integer n _ => if n ≤ Int64.maxValue.toInt then some (Int64.ofInt n) else none
  | .float .. => none

/-- The integer, if it is one and not negative. -/
def toNat? : JsonNumber → Option Nat
  | .integer n _ => if 0 ≤ n then some n.toNat else none
  | .float .. => none

/-- The number as a float, rounded if need be. -/
def toFloat : JsonNumber → Binary64
  | .integer n _ => ofInt .binary64 n
  | .float x _ => x

/-- The decimal exponents of the leading digit that are written in plain notation. -/
def plainExponents : Int × Int := (-5, 15)

/-- Plain notation of digits whose leading one has the given decimal exponent. -/
def plainText (digits : List Char) (leading : Int) : List Char :=
  if leading < 0 then
    '0' :: '.' :: (List.replicate (-leading - 1).toNat '0' ++ digits)
  else
    let places := leading.toNat + 1
    let whole := digits.take places ++ List.replicate (places - digits.length) '0'
    let fraction := digits.drop places
    whole ++ '.' :: if fraction.isEmpty then ['0'] else fraction

/-- Exponent notation of digits whose leading one has the given decimal exponent. -/
def exponentText (digits : List Char) (leading : Int) : List Char :=
  let point := if digits.length ≤ 1 then [] else ['.']
  digits.take 1 ++ point ++ digits.drop 1 ++ 'e' :: (if leading < 0 then '-' else '+') ::
    digitsOf leading.natAbs

/-- The text of a finite float. -/
def floatText (x : Binary64) : List Char :=
  let sign := if x.negative then ['-'] else []
  if x.code = 0 then sign ++ ['0', '.', '0']
  else
    let d := (shortest .binary64 x.code).stripZeros 400
    let digits := digitsOf d.coefficient
    let leading := d.exponent + digits.length - 1
    sign ++ if plainExponents.1 ≤ leading ∧ leading ≤ plainExponents.2 then plainText digits leading
      else exponentText digits leading

/-- The text of a number. -/
def text : JsonNumber → List Char
  | .integer n _ => textOfInt n
  | .float x _ => floatText x

end JsonNumber

end EntityQuery
