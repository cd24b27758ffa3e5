import EntityQuery.Json.Number

/-!
# Number tokens

A number as it stands in a text: its digits and its exponent. A token without point and exponent
is an integer if it fits 64 bits; `-0` is not, since an integer zero has no sign.

Every other token is a float, which is computed in a few rounded steps rather than exactly. The
leading digits are kept as long as they fit 64 bits; the integer they write is rounded to a
float, and that is multiplied or divided by a power of ten and rounded again. The result may
miss the nearest float by a place or two. A float beyond the largest one is no number at all.
-/

namespace EntityQuery

open Binary Text

/-- The number nearest to a power of ten. -/
def Binary.powerOfTen (F : Format) (n : Nat) : Binary F := ofInt F (tenPow n : Nat)

/-- A number as it stands in a text. -/
structure NumberToken where
  negative : Bool
  whole : List Nat
  fraction : Option (List Nat)
  exponent : Option Int

namespace NumberToken

/-- One more than the largest integer that digits are collected in. -/
def digitLimit : Nat := UInt64.size

/-- Appends digits to a number while it stays below the limit; the digits left over are given
back. -/
def appendDigits (n : Nat) : List Nat → Nat × List Nat
  | [] => (n, [])
  | d :: digits =>
    if 10 * n + d < digitLimit then appendDigits (10 * n + d) digits else (n, d :: digits)

/-- The number of the digits kept, and the power of ten that goes with it. Digits of the whole
part that are dropped count in the power, those of the fraction do not. -/
def leading (t : NumberToken) : Nat × Int :=
  let fraction := t.fraction.getD []
  let (n, dropped) := appendDigits 0 t.whole
  let (n, left) := appendDigits n fraction
  (n, t.exponent.getD 0 + dropped.length - (fraction.length - left.length : Nat))

/-- The exponent of the largest power of ten among the 64-bit floats. -/
def maxPower : Nat := 308

/-- A float divided by `10 ^ n`, in steps of the largest power of ten. -/
def divideByPower (x : Binary64) (n : Nat) : Binary64 :=
  if n ≤ maxPower then x.divide (powerOfTen .binary64 n)
  else if x.code = 0 then x
  else divideByPower (x.divide (powerOfTen .binary64 maxPower)) (n - maxPower)
termination_by n
decreasing_by
  simp only [maxPower] at *
  omega

/-- A float times a power of ten. -/
def scaleByPower (x : Binary64) (power : Int) : Binary64 :=
  if x.code = 0 then x
  else if power < 0 then divideByPower x power.natAbs
  else if power ≤ maxPower then x.multiply (powerOfTen .binary64 power.natAbs)
  else infinite .binary64 false

/-- The float of a token. -/
def toFloat (t : NumberToken) : Binary64 :=
  let (n, power) := t.leading
  let x := scaleByPower (ofInt .binary64 n) power
  ofCode .binary64 t.negative x.code

/-- The integer of a token, if the token has the form of one and fits. -/
def toInteger? (t : NumberToken) : Option JsonNumber :=
  let n := extendBy 0 t.whole
  if t.fraction.isSome || t.exponent.isSome || (t.negative && n == 0) then none
  else JsonNumber.ofInt? (if t.negative then -(n : Int) else n)

/-- The number of a token, if it is in the range of floats. -/
def value? (t : NumberToken) : Option JsonNumber := t.toInteger?.or (JsonNumber.ofFloat? t.toFloat)

end NumberToken

end EntityQuery
