import EntityQuery.Decimal.Basic
import EntityQuery.Text.Digits

/-!
# Reading decimals

A decimal is written as an optional sign and digits with at most one point; underscores may
group the digits after the first one. Digits of the fraction are kept as long as they fit, which
is up to the 28th place and up to 96 bits in all; the first that does not fit rounds the number,
a half upwards, and the rest is dropped. An underscore right after the 28th place of a short
number cuts it there, without rounding. Digits before the point must fit. Zero has no sign.

A decimal may also have an exponent. A negative one raises the scale, and rounds first what
would leave the range of scales; a number that this rounds to zero keeps its sign. A positive
one lowers the scale, or multiplies a number that has no scale left.

`Decimal.ofText?` formalizes the `from_str` of decimals, which reads the plain notation and falls
back to the one with an exponent; `ofScientific?` is `from_scientific` alone.
-/

namespace EntityQuery.Decimal

open Text

/-- The least coefficient that is not short: short ones take one more digit within 64 bits, and
leave 255 of that room unused. -/
def shortLimit : Nat := 0xFFFFFFFF_FFFFFFFF / 10 - 255

/-- Rounds by the first digit that was not kept: five and above carry. A carry out of 96 bits
gives up the last place; without places it fails. -/
def roundBy (negative : Bool) (coefficient scale digit : Nat) : Option Decimal :=
  if digit < 5 then ofUnsignedZeroParts? negative coefficient scale
  else if coefficient + 1 < limit then ofUnsignedZeroParts? negative (coefficient + 1) scale
  else if scale = 0 then none
  else ofUnsignedZeroParts? negative ((coefficient + 1 + 4) / 10) (scale - 1)

/-- Does an underscore end the number? It does after the last place, if the digits before that
place make a short coefficient. -/
def endsAtMark (coefficient scale : Nat) : Bool :=
  scale == maxScale && coefficient / 10 < shortLimit

/-- Appends the digits of a fraction while they fit, then rounds. -/
def appendFraction (negative : Bool) (coefficient scale : Nat) : List Char → Option Decimal
  | [] => ofUnsignedZeroParts? negative coefficient scale
  | c :: rest =>
    match digit? c with
    | some d =>
      if scale < maxScale ∧ 10 * coefficient + d < limit then
        appendFraction negative (10 * coefficient + d) (scale + 1) rest
      else roundBy negative coefficient scale d
    | none =>
      if endsAtMark coefficient scale then ofUnsignedZeroParts? negative coefficient scale
      else appendFraction negative coefficient scale rest

/-- A digit, or an underscore between digits. -/
def isGroupedDigit (c : Char) : Bool := isDigit c || c == '_'

/-- An unsigned decimal without exponent. -/
def ofMagnitude? (negative : Bool) (s : List Char) : Option Decimal :=
  let whole := s.takeWhile isGroupedDigit
  let rest := s.dropWhile isGroupedDigit
  let fraction := rest.drop 1
  let firstDigit := (whole ++ fraction).head?
  if (rest.head?.all (· == '.') && fraction.all isGroupedDigit && firstDigit.any isDigit) then
    appendFraction negative (extendBy 0 (whole.filterMap digit?)) 0 fraction
  else none

/-- A decimal without exponent. -/
def ofPlain? : List Char → Option Decimal
  | '-' :: s => ofMagnitude? true s
  | '+' :: s => ofMagnitude? false s
  | s => ofMagnitude? false s

/-- The coefficient over ten to `places`, rounded to the nearest, a half upwards. -/
def dropPlaces (d : Decimal) (places : Nat) : Nat :=
  (d.coefficient + tenPow places / 2) / tenPow places

/-- The decimal divided by `10 ^ exponent`. -/
def lowered? (d : Decimal) (exponent : Nat) : Option Decimal :=
  if maxScale < exponent then none
  else if d.scale + exponent ≤ maxScale then
    ofParts? d.negative d.coefficient (d.scale + exponent)
  else ofParts? d.negative (d.dropPlaces (d.scale + exponent - maxScale)) maxScale

/-- The decimal multiplied by `10 ^ exponent`. -/
def raised? (d : Decimal) (exponent : Nat) : Option Decimal :=
  if exponent ≤ d.scale then ofParts? d.negative d.coefficient (d.scale - exponent)
  else if maxScale < exponent then none
  else ofParts? d.negative (d.coefficient * tenPow (exponent - d.scale)) 0

/-- The mark between a number and its exponent. -/
def isExponentMark (c : Char) : Bool := c == 'e' || c == 'E'

/-- A decimal with an exponent, which may have a sign and, after a minus, a plus. -/
def ofScientific? (s : List Char) : Option Decimal := do
  let base := s.takeWhile fun c => !isExponentMark c
  match s.dropWhile fun c => !isExponentMark c with
  | _ :: '-' :: exponent => (← ofPlain? base).lowered? (← unsigned? exponent)
  | _ :: exponent => (← ofPlain? base).raised? (← unsigned? exponent)
  | [] => none

/-- A decimal from its text. -/
def ofText? (s : List Char) : Option Decimal := (ofPlain? s).or (ofScientific? s)

end EntityQuery.Decimal
