/-!
# Binary floating-point formats

A format counts its numbers without sign by *codes* `0, 1, 2, …`: zero, the positive numbers in
ascending order, infinity, and above it the not-a-numbers. The code of a number is its bit
pattern without the sign bit, so the order of the codes is the order of the numbers.

Every finite number is a whole multiple of the least positive one. `units` is that multiple, and
`2 ^ unitExponent` is how many units make up one, so the number with code `c` is exactly
`units c / 2 ^ unitExponent`. Arithmetic is done on such fractions and rounded once, by
`nearest`: to the nearest number of the format, a tie to the neighbour with the even code, and
to infinity past the largest number.
-/

namespace EntityQuery

/-- Two to the power `n`. -/
def twoPow (n : Nat) : Nat := Nat.pow 2 n

theorem twoPow_pos (n : Nat) : 0 < twoPow n := Nat.two_pow_pos n

namespace Binary

/-- A binary interchange format. -/
structure Format where
  /-- Bits of the fraction field. -/
  fractionBits : Nat
  /-- Bits of the exponent field. -/
  exponentBits : Nat
deriving DecidableEq, Repr

/-- The 32-bit format. -/
def Format.binary32 : Format := ⟨23, 8⟩

/-- The 64-bit format. -/
def Format.binary64 : Format := ⟨52, 11⟩

/-- The quotient of two numbers, rounded to the nearest whole number, a tie to the even one. -/
def divideToEven (num den : Nat) : Nat :=
  let q := num / den
  let rest := num % den
  if den < 2 * rest ∨ (2 * rest = den ∧ q % 2 = 1) then q + 1 else q

namespace Format

variable (F : Format)

/-- How many codes there are. -/
def codes : Nat := twoPow (F.exponentBits + F.fractionBits)

/-- The code of infinity; smaller codes are finite numbers. -/
def infinity : Nat := (twoPow F.exponentBits - 1) * twoPow F.fractionBits

/-- One is `2 ^ unitExponent` units. -/
def unitExponent : Nat := twoPow (F.exponentBits - 1) + F.fractionBits - 2

/-- The significand of a finite code: the fraction, with the leading bit that normal numbers
leave out. -/
def significand (code : Nat) : Nat :=
  if code / twoPow F.fractionBits = 0 then code
  else twoPow F.fractionBits + code % twoPow F.fractionBits

/-- How often the significand is doubled to reach the number of units. -/
def doublings (code : Nat) : Nat := code / twoPow F.fractionBits - 1

/-- A finite code as a multiple of the least positive number. -/
def units (code : Nat) : Nat := F.significand code * twoPow (F.doublings code)

/-- The code nearest to the fraction `num / den`, counted in units. -/
def nearest (num den : Nat) : Nat :=
  let doublings := (num / den).log2 - F.fractionBits
  let significand := divideToEven num (den * twoPow doublings)
  min (doublings * twoPow F.fractionBits + significand) F.infinity

end Format

end Binary

end EntityQuery
