import EntityQuery.Decimal.Basic

/-!
# Binary numbers as decimals

A finite binary number is an odd multiple of a power of two, and a decimal that equals it may
need more digits than fit. The conversion moves the powers of two over to powers of ten step by
step, keeping 96 bits of the coefficient, and then rounds away what is beyond the 28th place or
beyond 52 bits. It is therefore exact for short decimals and close for others; it fails for
numbers that do not fit 96 bits before the point.

The state of each phase is a coefficient and the exponent of ten that goes with it.

`Decimal.ofBinary64?` formalizes `from_f64`.
-/

namespace EntityQuery.Decimal

open Binary

/-- The least coefficient that is rounded for being too long: one of more than 52 bits. -/
def longLimit : Nat := twoPow 52

/-- A coefficient with an exponent of ten. -/
structure Scaled where
  coefficient : Nat
  exponent : Int
deriving DecidableEq, Repr

namespace Scaled

/-- Trades `n` factors one half for factors one tenth: each halves the coefficient, or turns a
half into five tenths when the coefficient is odd and five times it fits. -/
def tradeHalves (x : Scaled) : Nat → Scaled
  | 0 => x
  | n + 1 =>
    if x.coefficient % 2 = 1 ∧ x.coefficient * 5 < limit then
      tradeHalves ⟨x.coefficient * 5, x.exponent⟩ n
    else tradeHalves ⟨x.coefficient / 2, x.exponent + 1⟩ n

/-- Trades `n` factors two for factors ten: each doubles the coefficient while there is room,
and takes a fifth of it after that; it fails when the power of ten left is too large. -/
def tradeDoubles (x : Scaled) : Nat → Option Scaled
  | 0 => some x
  | n + 1 =>
    if x.coefficient * 2 < limit then tradeDoubles ⟨x.coefficient * 2, x.exponent - 1⟩ n
    else if x.exponent * 2 > n + 1 then none
    else tradeDoubles ⟨x.coefficient / 5, x.exponent⟩ n

/-- Multiplies a positive power of ten out. -/
def multiplyOut? (x : Scaled) : Option Scaled :=
  let coefficient := x.coefficient * tenPow x.exponent.toNat
  if x.exponent ≤ 0 then some x
  else if coefficient < limit then some ⟨coefficient, 0⟩
  else none

/-- Drops the last digit, rounding a half up. -/
def dropDigit (x : Scaled) : Scaled :=
  ⟨if 5 ≤ x.coefficient % 10 then x.coefficient / 10 + 1 else x.coefficient / 10, x.exponent + 1⟩

/-- Drops the places beyond the 28th, `n` bounding their number. What vanishes is zero. -/
def dropFarPlaces (x : Scaled) : Nat → Scaled
  | 0 => x
  | n + 1 =>
    if -(maxScale : Int) ≤ x.exponent then x
    else if x.coefficient / 10 = 0 then ⟨0, 0⟩
    else dropFarPlaces x.dropDigit n

/-- Drops places until 52 bits hold the coefficient, `n` bounding their number. -/
def dropLongPlaces (x : Scaled) : Nat → Scaled
  | 0 => x
  | n + 1 =>
    if x.exponent < 0 ∧ longLimit ≤ x.coefficient then dropLongPlaces x.dropDigit n else x

/-- Drops the places that are zero, `n` bounding their number. -/
def dropZeroPlaces (x : Scaled) : Nat → Scaled
  | 0 => x
  | n + 1 =>
    if x.exponent < 0 ∧ x.coefficient % 10 = 0 then
      dropZeroPlaces ⟨x.coefficient / 10, x.exponent + 1⟩ n
    else x

/-- Brings the coefficient and the number of places into the range of a decimal. -/
def fit (x : Scaled) : Scaled :=
  let x := x.dropFarPlaces (-x.exponent).toNat
  let x := x.dropLongPlaces (-x.exponent).toNat
  x.dropZeroPlaces (-x.exponent).toNat

/-- The decimal of a sign and a scaled coefficient. -/
def toDecimal? (negative : Bool) (x : Scaled) : Option Decimal :=
  ofParts? negative x.coefficient (-x.exponent).toNat

end Scaled

/-- A 64-bit number as a decimal, where it has a place among decimals. -/
def ofBinary64? (x : Binary64) : Option Decimal :=
  let significand := Format.binary64.significand x.code
  let power : Int := Format.binary64.doublings x.code - Format.binary64.unitExponent
  if !x.isFinite then none
  else if x.code = 0 then ofParts? false 0 0
  else
    let start : Scaled := ⟨significand, power⟩
    let traded := if power < 0 then some (start.tradeHalves (-power).toNat)
      else start.tradeDoubles power.toNat
    ((traded.bind Scaled.multiplyOut?).map Scaled.fit).bind (Scaled.toDecimal? x.negative)

end EntityQuery.Decimal
