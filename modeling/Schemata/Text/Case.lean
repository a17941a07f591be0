import Schemata.Text.Blank
import Schemata.Text.CaseTable

/-!
# Comparing texts without regard to case

Two rules: one folds the letters A to Z only, the other writes a text in lower case by the rules of
Unicode, where the form of a capital sigma depends on its neighbours.
-/
namespace Schemata.Text

/-- Equality up to the case of the letters A to Z. -/
def equalFolded (s t : String) : Bool :=
  s.toList.map Char.toLower == t.toList.map Char.toLower

def CaseRun.covers (r : CaseRun) (n : Nat) : Bool :=
  decide (r.first ≤ n) && decide (n ≤ r.last) && (n - r.first) % r.step == 0

/-- The lower-case form of a character by itself; only the dotted capital I has one of two
characters. -/
def lowerChar (c : Char) : List Char :=
  let n := c.toNat
  if n < 0x80 then [c.toLower]
  else if c = 'İ' then ['i', '\u0307']
  else
    match lowerRuns.find? (·.covers n) with
    | some run => [Char.ofNat (n + run.shift).toNat]
    | none => [c]

def isCased (c : Char) : Bool := inRanges casedRanges c.toNat

def isCaseIgnorable (c : Char) : Bool := inRanges caseIgnorableRanges c.toNat

/-- Is the first character that counts a cased one? -/
def meetsCased (s : List Char) : Bool :=
  match s.dropWhile isCaseIgnorable with
  | [] => false
  | c :: _ => isCased c

/-- The lower-case form of a text that stands after `before`, given back to front. A capital sigma
takes its final form after a cased character if none follows. -/
def lowerAfter (before : List Char) : List Char → List Char
  | [] => []
  | c :: rest =>
    (if c = 'Σ' then [if meetsCased before && !meetsCased rest then 'ς' else 'σ']
      else lowerChar c) ++ lowerAfter (c :: before) rest

def lowerCase (s : String) : String := String.ofList (lowerAfter [] s.toList)

end Schemata.Text
