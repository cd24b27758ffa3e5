import EntityQuery.Binary.Format

/-!
# Binary floating-point numbers

A number of a binary format is a sign and a code. Zero has both signs, and the two zeros are
equal in order; a not-a-number has a sign too, but no place in the order. Conversions, products and
quotients go through the exact value and round once, to the nearest number of the format.

`compare?` formalizes `partial_cmp` of floats, `convert` and `ofInt` their casts.
-/

namespace EntityQuery

open Binary

/-- A number of a binary format, or a not-a-number. -/
structure Binary (F : Format) where
  negative : Bool
  code : Nat
  code_lt : code < F.codes
deriving DecidableEq, Repr

/-- A number of the 32-bit format. -/
abbrev Binary32 := Binary .binary32

/-- A number of the 64-bit format. -/
abbrev Binary64 := Binary .binary64

namespace Binary

variable {F G : Format}

/-- The number with a sign and a code; a code out of range counts as the last one. -/
def ofCode (F : Format) (negative : Bool) (code : Nat) : Binary F :=
  ⟨negative, min code (F.codes - 1), by
    have : 0 < F.codes := Nat.two_pow_pos _
    omega⟩

/-- The number with a bit pattern, the sign being the topmost bit. -/
def ofBits (F : Format) (bits : Nat) : Binary F :=
  ofCode F (F.codes ≤ bits) (bits % F.codes)

/-- The bit pattern. -/
def toBits (x : Binary F) : Nat := if x.negative then F.codes + x.code else x.code

/-- Not a number. -/
def isNaN (x : Binary F) : Bool := F.infinity < x.code

/-- Neither infinite nor a not-a-number. -/
def isFinite (x : Binary F) : Bool := x.code < F.infinity

/-- The infinite number of a sign. -/
def infinite (F : Format) (negative : Bool) : Binary F := ofCode F negative F.infinity

/-- The not-a-number of a sign whose fraction has its topmost bit alone. -/
def notANumber (F : Format) (negative : Bool) : Binary F :=
  ofCode F negative (F.infinity + twoPow (F.fractionBits - 1))

/-- The place of a number in the order of its format: codes, counted downwards for negative
numbers. Both zeros are at 0. -/
def place (x : Binary F) : Int := if x.negative then -(x.code : Int) else x.code

/-- The order of two numbers; none if either is a not-a-number. -/
def compare? (x y : Binary F) : Option Ordering :=
  if x.isNaN || y.isNaN then none else some (compare x.place y.place)

/-- The number of the format nearest to `± num / den`. -/
def ofFraction (F : Format) (negative : Bool) (num den : Nat) : Binary F :=
  ofCode F negative (F.nearest (num * twoPow F.unitExponent) den)

/-- The number nearest to an integer. -/
def ofInt (F : Format) (n : Int) : Binary F := ofFraction F (n < 0) n.natAbs 1

/-- A number in another format: the nearest one there. Infinities and not-a-numbers keep their
kind and sign. -/
def convert (G : Format) (x : Binary F) : Binary G :=
  if x.isNaN then notANumber G x.negative
  else if x.isFinite then ofFraction G x.negative (F.units x.code) (twoPow F.unitExponent)
  else infinite G x.negative

/-- The integer that a finite number is, if it is one. -/
def toInt? (x : Binary F) : Option Int :=
  let units := F.units x.code
  let one := twoPow F.unitExponent
  if x.isFinite && units % one == 0 then
    some (if x.negative then -((units / one : Nat) : Int) else ((units / one : Nat) : Int))
  else none

/-- The product of two finite numbers. Its sign is negative where the signs of the two differ, also
that of a zero. -/
def multiply (x y : Binary F) : Binary F :=
  ofFraction F (x.negative != y.negative) (F.units x.code * F.units y.code)
    (twoPow (2 * F.unitExponent))

/-- The quotient of two finite numbers, the second one not zero, with the sign of the product. -/
def divide (x y : Binary F) : Binary F :=
  ofFraction F (x.negative != y.negative) (F.units x.code) (F.units y.code)

end Binary

end EntityQuery
