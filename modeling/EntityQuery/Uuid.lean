import EntityQuery.Text.Digits

/-!
# Universally unique identifiers

Numbers of 128 bits, ordered as numbers, which is their order byte by byte. Their text is 32
hexadecimal digits in either case, alone or grouped by hyphens; the grouped form may stand in
braces or after a fixed tag.

`Uuid.ofText?` formalizes `parse_str`.
-/

namespace EntityQuery

/-- One more than the largest number of 128 bits. -/
def Uuid.limit : Nat := 0x1_00000000_00000000_00000000_00000000

/-- A universally unique identifier. -/
structure Uuid where
  value : Nat
  value_lt : value < Uuid.limit
deriving DecidableEq, Repr

namespace Uuid

/-- The identifier of a number, if it has 128 bits. -/
def ofNat? (n : Nat) : Option Uuid := if h : n < limit then some ⟨n, h⟩ else none

/-- The lengths of the groups of the hyphenated form. -/
def groupLengths : List Nat := [8, 4, 4, 4, 12]

/-- Cuts a text into groups of the given lengths with hyphens between them. -/
def groups? : List Nat → List Char → Option (List Char)
  | [], s => if s.isEmpty then some [] else none
  | [n], s => if s.length = n then some s else none
  | n :: lengths, s =>
    match s.drop n with
    | '-' :: rest => (groups? lengths rest).map (s.take n ++ ·)
    | _ => none

/-- The identifier of 32 hexadecimal digits. -/
def ofDigits? (s : List Char) : Option Uuid :=
  if s.length = 32 then
    (s.mapM Text.hexDigit?).bind fun digits => ofNat? (digits.foldl (fun n d => 16 * n + d) 0)
  else none

/-- The identifier of the hyphenated form. -/
def ofHyphenated? (s : List Char) : Option Uuid := (groups? groupLengths s).bind ofDigits?

/-- The tag that the hyphenated form may stand after, in any case. -/
def tag : List Char := "urn:uuid:".toList

/-- The identifier of a text. -/
def ofText? (s : List Char) : Option Uuid :=
  if s.length = 32 then ofDigits? s
  else if s.length = 36 then ofHyphenated? s
  else if s.length = 38 ∧ s.head? = some '\x7b' ∧ s.getLast? = some '\x7d' then
    ofHyphenated? ((s.drop 1).take 36)
  else if s.length = 45 ∧ (s.take 9).map Char.toLower = tag then ofHyphenated? (s.drop 9)
  else none

/-- The hexadecimal digits of an identifier. -/
def digits (u : Uuid) : List Char :=
  let digits := Nat.toDigits 16 u.value
  List.replicate (32 - digits.length) '0' ++ digits

/-- Groups of the given lengths with hyphens between them. -/
def hyphenate : List Nat → List Char → List Char
  | [], s => s
  | [_], s => s
  | n :: lengths, s => s.take n ++ '-' :: hyphenate lengths (s.drop n)

/-- The hyphenated form of an identifier, in small letters. -/
def text (u : Uuid) : String := String.ofList (hyphenate groupLengths u.digits)

end Uuid

end EntityQuery
