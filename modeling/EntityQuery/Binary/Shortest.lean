import EntityQuery.Binary.Basic
import EntityQuery.Text.Digits

/-!
# Shortest decimal digits

The decimal `digits · 10 ^ exponent` with the fewest digits that rounds back to a given number,
and of those the one nearest to it; an exact tie goes to the even digit. For each count of
digits only two candidates matter, the neighbours of the number on the decimal grid of that
count: if any point of a grid rounds back, one of these two does.
-/

namespace EntityQuery.Binary

open Text

/-- The decimal `coefficient · 10 ^ exponent`. -/
structure Decimals where
  coefficient : Nat
  exponent : Int
deriving DecidableEq, Repr

variable (F : Format)

/-- Does the decimal round to the number with this code? -/
def Decimals.roundsTo (d : Decimals) (code : Nat) : Bool :=
  let unit := twoPow F.unitExponent
  code == if 0 ≤ d.exponent then F.nearest (d.coefficient * tenPow d.exponent.toNat * unit) 1
    else F.nearest (d.coefficient * unit) (tenPow (-d.exponent).toNat)

/-- The decimal exponent of the leading digit of `num / den`. -/
def leadingExponent (num den : Nat) : Int :=
  if den ≤ num then (digitCount (num / den) : Int) - 1 else -(digitCount ((den - 1) / num) : Int)

/-- Of the two neighbours on the grid `10 ^ exponent` those that round back, the nearer one
first; none if neither does. -/
def onGrid? (code : Nat) (exponent : Int) : Option Decimals :=
  let units := F.units code
  let one := twoPow F.unitExponent
  let num := if 0 ≤ exponent then units else units * tenPow (-exponent).toNat
  let den := if 0 ≤ exponent then one * tenPow exponent.toNat else one
  let near := divideToEven num den
  let far := if near = num / den then near + 1 else num / den
  [Decimals.mk near exponent, Decimals.mk far exponent].find? fun d => d.roundsTo F code

/-- The shortest decimal of the positive finite number with this code. -/
def shortest (code : Nat) : Decimals :=
  let leading := leadingExponent (F.units code) (twoPow F.unitExponent)
  let grids := (List.range 17).map fun (n : Nat) => leading - (n : Int)
  (grids.findSome? (onGrid? F code)).getD ⟨0, 0⟩

/-- The same decimal without trailing zeros among its digits; `fuel` bounds their number. -/
def Decimals.stripZeros (d : Decimals) : Nat → Decimals
  | 0 => d
  | fuel + 1 =>
    if d.coefficient != 0 && d.coefficient % 10 == 0 then
      Decimals.stripZeros ⟨d.coefficient / 10, d.exponent + 1⟩ fuel
    else d

end EntityQuery.Binary
