/-!
# Decimal digits

Numbers written in ASCII digits. Digits of other scripts are no digits here. A signed integer is
an optional sign and at least one digit; a range is the business of the caller, so leading zeros
are harmless and no length overflows. The place of a digit counts in powers of ten.

`integer?` and `unsigned?` formalize the parsing of integers with and without sign, before their
range is checked.
-/

namespace EntityQuery

/-- Ten to the power `n`. -/
def tenPow (n : Nat) : Nat := Nat.pow 10 n

theorem tenPow_pos (n : Nat) : 0 < tenPow n := Nat.pow_pos (by decide)

namespace Text

/-- The value of an ASCII digit. -/
def digit? (c : Char) : Option Nat :=
  if '0' ≤ c ∧ c ≤ '9' then some (c.toNat - '0'.toNat) else none

/-- The value of a hexadecimal digit, in either case. -/
def hexDigit? (c : Char) : Option Nat :=
  if '0' ≤ c ∧ c ≤ '9' then some (c.toNat - '0'.toNat)
  else if 'a' ≤ c ∧ c ≤ 'f' then some (c.toNat - 'a'.toNat + 10)
  else if 'A' ≤ c ∧ c ≤ 'F' then some (c.toNat - 'A'.toNat + 10)
  else none

/-- Is the character an ASCII digit? -/
def isDigit (c : Char) : Bool := (digit? c).isSome

/-- The digits of a text, one number for each character; nothing if a character is no digit. -/
def digits? (s : List Char) : Option (List Nat) := s.mapM digit?

/-- The number that digits write, most significant first, after the number `start`. -/
def extendBy (start : Nat) (digits : List Nat) : Nat := digits.foldl (fun n d => 10 * n + d) start

/-- A natural number: at least one digit and nothing else. -/
def natural? (s : List Char) : Option Nat :=
  if s.isEmpty then none else (digits? s).map (extendBy 0)

/-- An integer: an optional sign and a natural number. -/
def integer? : List Char → Option Int
  | '-' :: s => (natural? s).map fun n => -(n : Int)
  | '+' :: s => (natural? s).map Int.ofNat
  | s => (natural? s).map Int.ofNat

/-- A natural number that may carry a plus sign. -/
def unsigned? : List Char → Option Nat
  | '+' :: s => natural? s
  | s => natural? s

/-- The digits of a number, most significant first; zero is one digit. -/
def digitsOf (n : Nat) : List Char := Nat.toDigits 10 n

/-- The decimal text of an integer. -/
def textOfInt (n : Int) : List Char :=
  if n < 0 then '-' :: digitsOf n.natAbs else digitsOf n.natAbs

/-- How many digits a number has; none for zero. -/
def digitCount (n : Nat) : Nat := if n = 0 then 0 else (digitsOf n).length

end Text

end EntityQuery
