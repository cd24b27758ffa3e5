import EntityQuery.Binary.Basic
import EntityQuery.Text.Digits

/-!
# Decimals

A decimal is a sign and a coefficient of at most 96 bits over a power of ten, the scale, of at
most 28. The scale is part of the value as written (`1.10` keeps its zero), and so is the sign of
a zero, which a number has that was rounded to zero. Neither is part of the order: decimals
compare as the numbers they are.
-/

namespace EntityQuery

open Binary Text

/-- One more than the largest coefficient, a number of 96 bits. -/
def Decimal.limit : Nat := 0x1_00000000_00000000_00000000

/-- The largest scale. -/
def Decimal.maxScale : Nat := 28

/-- The number `coefficient / 10 ^ scale`, with its sign. -/
structure Decimal where
  negative : Bool
  coefficient : Nat
  scale : Nat
  coefficient_lt : coefficient < Decimal.limit
  scale_le : scale ≤ Decimal.maxScale
deriving DecidableEq, Repr

namespace Decimal

/-- The decimal with these parts, if they are in range. -/
def ofParts? (negative : Bool) (coefficient scale : Nat) : Option Decimal :=
  if h : coefficient < limit ∧ scale ≤ maxScale then
    some ⟨negative, coefficient, scale, h.1, h.2⟩
  else none

/-- The decimal with these parts, if they are in range, a zero without its sign. -/
def ofUnsignedZeroParts? (negative : Bool) (coefficient scale : Nat) : Option Decimal :=
  ofParts? (negative && coefficient != 0) coefficient scale

/-- The coefficient with the sign of the number. -/
def signed (d : Decimal) : Int := if d.negative then -(d.coefficient : Int) else d.coefficient

/-- A 64-bit integer as a decimal. -/
def ofInt64 (n : Int64) : Decimal :=
  ⟨n.toInt < 0, n.toInt.natAbs, 0, by
    have h₁ := n.le_toInt
    have h₂ := n.toInt_lt
    unfold limit
    omega, by decide⟩

/-- The order of decimals as numbers. -/
def order (a b : Decimal) : Ordering :=
  compare (a.signed * (tenPow b.scale : Nat)) (b.signed * (tenPow a.scale : Nat))

/-- The integer that a decimal is, if it has no fraction. -/
def toInt? (d : Decimal) : Option Int :=
  let one : Int := (tenPow d.scale : Nat)
  if d.signed % one = 0 then some (d.signed / one) else none

/-- The nearest number of the 64-bit format. -/
def toBinary64 (d : Decimal) : Binary64 :=
  ofFraction .binary64 d.negative d.coefficient (tenPow d.scale)

/-- The decimal as text: a minus sign where there is one, and all digits of its scale. -/
def text (d : Decimal) : String :=
  let sign := if d.negative then ['-'] else []
  let digits := digitsOf d.coefficient
  let padded := List.replicate (d.scale + 1 - digits.length) '0' ++ digits
  let whole := padded.take (padded.length - d.scale)
  let fraction := padded.drop (padded.length - d.scale)
  String.ofList (sign ++ whole ++ if d.scale = 0 then [] else '.' :: fraction)

/-- The sign of an integer is the sign of its decimal. -/
theorem signed_ofInt64 (n : Int64) : (ofInt64 n).signed = n.toInt := by
  simp only [signed, ofInt64, decide_eq_true_eq]
  split <;> omega

end Decimal

end EntityQuery
