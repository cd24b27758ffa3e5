import EntityQuery.Text.CaseTable

/-!
# Lower case

The full lower-case mapping of a text. A character maps by the table, with two exceptions: the
capital I with a dot becomes two characters, and a capital sigma at the end of a word becomes
the final sigma. A sigma ends a word when, skipping case-ignorable characters on both sides, a
cased character stands before it and none after it. The mapping therefore depends on the
neighbours of a character, and the length of a text may change.

Names of enum variants are compared under the ASCII mapping instead, which leaves every other
character alone.

`lowercase` formalizes `to_lowercase`, and `sameIgnoringAsciiCase` formalizes
`eq_ignore_ascii_case`.
-/

namespace EntityQuery.Text

/-- Does a range of the table hold the character? -/
def inRanges (ranges : List (Nat × Nat)) (c : Char) : Bool :=
  ranges.any fun r => r.1 ≤ c.toNat && c.toNat ≤ r.2

/-- A letter that has case. -/
def isCased (c : Char) : Bool := inRanges casedRanges c

/-- A character that is skipped when the case of its neighbours is looked at. -/
def isCaseIgnorable (c : Char) : Bool := inRanges caseIgnorableRanges c

/-- Is the code point one of the capitals of the run? -/
def CaseRun.covers (r : CaseRun) (n : Nat) : Bool :=
  r.first ≤ n && n ≤ r.last && (n - r.first) % r.step == 0

/-- The lower-case mapping of a character apart from its neighbours. -/
def lowerChar (c : Char) : List Char :=
  if c == 'İ' then ['i', '\u0307']
  else match lowerRuns.find? fun r => r.covers c.toNat with
    | some r => [Char.ofNat (c.toNat + r.shift).toNat]
    | none => [c]

/-- Does the text start, after characters to skip, with a cased one? -/
def startsCased (s : List Char) : Bool :=
  match s.dropWhile isCaseIgnorable with
  | c :: _ => isCased c
  | [] => false

/-- Lower case of a text whose left neighbourhood is summed up by `afterCased`: the last
character before it that is not skipped exists and is cased. -/
def lowerFrom (afterCased : Bool) : List Char → List Char
  | [] => []
  | c :: rest =>
    (if c == 'Σ' then [if afterCased && !startsCased rest then 'ς' else 'σ'] else lowerChar c) ++
      lowerFrom (if isCaseIgnorable c then afterCased else isCased c) rest

/-- The lower-case form of a text. -/
def lowercase (s : String) : String := String.ofList (lowerFrom false s.toList)

/-- The lower-case form of a character under the ASCII mapping: only `A` to `Z` change. -/
def lowerAscii (c : Char) : Char :=
  if 'A' ≤ c ∧ c ≤ 'Z' then Char.ofNat (c.toNat + 32) else c

/-- Equality up to the case of ASCII letters; every other character must be the same. -/
def sameIgnoringAsciiCase (a b : String) : Bool :=
  a.toList.map lowerAscii == b.toList.map lowerAscii

end EntityQuery.Text
