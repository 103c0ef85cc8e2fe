import ContactCard.Text.CaseTable

/-!
# Letter case

Lower and upper case of a text by the full mappings of Unicode: a letter may become several (`ß` is
`SS` in upper case), and a capital sigma at the end of a word becomes the final form. Whether a
sigma ends a word is decided by the nearest characters on both sides that are not passed over: there
is a letter before it and none after it.
-/

namespace ContactCard.Text

/-- The first character in `cs` that is not passed over is a letter with case. -/
def startsCased (cs : List Char) : Bool :=
  match cs.dropWhile fun c ↦ inRanges c.toNat caseIgnorableRanges with
  | [] => false
  | c :: _ => inRanges c.toNat casedRanges

/-- The mapping of one character: its expansion, or else its run, or else itself. -/
def mapCase (expansions : List (Nat × List Nat)) (runs : List CaseRun) (c : Char) : List Char :=
  match expansions.lookup c.toNat with
  | some ns => ns.map Char.ofNat
  | none =>
    match findRun? c.toNat runs with
    | some m => [Char.ofNat m]
    | none => [c]

/-- Lower case of a character wherever it stands. -/
def lowerOf (c : Char) : List Char := mapCase lowerExpansions lowerRuns c

/-- Upper case of a character. -/
def upperOf (c : Char) : List Char := mapCase upperExpansions upperRuns c

/-- Lower case of the rest of a text. `afterCased` says whether the nearest character before it
that is not passed over is a letter with case. -/
def lowerFrom (afterCased : Bool) : List Char → List Char
  | [] => []
  | c :: rest =>
    let here :=
      if c = 'Σ' then [if afterCased && !startsCased rest then 'ς' else 'σ'] else lowerOf c
    let after :=
      if inRanges c.toNat caseIgnorableRanges then afterCased else inRanges c.toNat casedRanges
    here ++ lowerFrom after rest

/-- The text in lower case. -/
def toLower (s : String) : String := String.ofList (lowerFrom false s.toList)

/-- The text in upper case. -/
def toUpper (s : String) : String := String.ofList (s.toList.flatMap upperOf)

end ContactCard.Text
