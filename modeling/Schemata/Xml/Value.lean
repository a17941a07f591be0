import Schemata.Text.Number
import Schemata.Xml.Reader

/-!
# Character data and attribute values

Both may hold references to characters. Line ends in character data become line feeds, and blanks
in attribute values become spaces, but only where they are written literally.
-/
namespace Schemata.Xml
open Text

/-- A character of a value, and whether it is written as it is. -/
inductive Piece
  | plain (c : Char)
  | referenced (c : Char)
deriving DecidableEq, Repr

/-- What stands between an ampersand and a semicolon. -/
inductive Entity
  | character (c : Char)
  | named (name : String)
deriving DecidableEq, Repr

def hexDigit? (c : Char) : Option Nat :=
  if c.isDigit then some (c.toNat - 48)
  else if 'a' ≤ c ∧ c ≤ 'f' then some (c.toNat - 87)
  else if 'A' ≤ c ∧ c ≤ 'F' then some (c.toNat - 55)
  else none

/-- The number that the hexadecimal digits spell, if all are digits and there is one. -/
def readHex? (digits : List Char) : Option Nat :=
  if digits = [] then none
  else digits.foldl (fun n c => return (← n) * 16 + (← hexDigit? c)) (some 0)

def readDecimal? (digits : List Char) : Option Nat :=
  if digits != [] && digits.all Char.isDigit then some (Nat.ofDigitChars 10 digits 0) else none

/-- The character with a number of 32 bits, or a replacement if there is none; it must be allowed in
a document. -/
def numbered? (n : Nat) : Option Char :=
  if n < wordLimit then
    let c := if n.isValidChar then Char.ofNat n else '\uFFFD'
    if isXmlChar c then some c else none
  else none

def predefined : List (String × Char) :=
  [("quot", '"'), ("amp", '&'), ("apos", '\''), ("lt", '<'), ("gt", '>')]

def readEntity? (body : List Char) : Option Entity :=
  match body with
  | '#' :: 'x' :: digits => (readHex? digits).bind fun n => (numbered? n).map .character
  | '#' :: digits => (readDecimal? digits).bind fun n => (numbered? n).map .character
  | _ =>
    if isName body then
      match predefined.lookup (String.ofList body) with
      | some c => some (.character c)
      | none => some (.named (String.ofList body))
    else none

/-- The position after a text. -/
def Position.afterAll (p : Position) (s : List Char) : Position := s.foldl Position.after p

/-- The pieces of a value that starts at a position. -/
def pieces (p : Position) (s : List Char) : Except Fault (List Piece) :=
  match s with
  | [] => .ok []
  | c :: rest =>
    if c = '&' then
      match hcut : cut ';' rest with
      | (_, none) => .error (.malformedReference p)
      | (body, some after) =>
        match readEntity? body with
        | none => .error (.malformedReference p)
        | some (.named name) => .error (.unknownEntity name p)
        | some (.character ch) =>
          have : after.length < rest.length := length_lt_of_cut hcut
          (pieces ((p.after c).afterAll (body ++ [';'])) after).map (.referenced ch :: ·)
    else (pieces (p.after c) rest).map (.plain c :: ·)
termination_by s.length

/-- Character data, of which `before` has been read, back to front. A carriage return becomes a line
feed when the next plain character comes, and swallows a line feed; one at the end becomes a line
feed at once. A plain character right after a reference is only added. -/
def lineEndsFrom (afterReference : Bool) (before : List Char) : List Piece → List Char
  | [] => before.reverse
  | .referenced c :: rest => lineEndsFrom true (c :: before) rest
  | .plain c :: rest =>
    if afterReference then lineEndsFrom false (c :: before) rest
    else
      let last := if rest = [] && c = '\r' then '\n' else c
      match before with
      | '\r' :: before =>
        if c = '\n' then lineEndsFrom false ('\n' :: before) rest
        else lineEndsFrom false (last :: '\n' :: before) rest
      | before => lineEndsFrom false (last :: before) rest

def lineEnds (s : List Piece) : List Char := lineEndsFrom false [] s

/-- An attribute value: every plain line end or tab is one space. -/
def spaced : List Piece → List Char
  | [] => []
  | .referenced c :: rest => c :: spaced rest
  | .plain c :: rest =>
    if c = '\r' && rest.head? == some (.plain '\n') then spaced rest
    else (if isSpace c then ' ' else c) :: spaced rest

def characterData (p : Position) (s : List Char) : Except Fault String :=
  (pieces p s).map fun ps => String.ofList (lineEnds ps)

def attributeValue (p : Position) (s : List Char) : Except Fault String :=
  (pieces p s).map fun ps => String.ofList (spaced ps)

/-- Text that is taken as it is but for its line ends. -/
def literalData (s : List Char) : String := String.ofList (lineEnds (s.map .plain))

end Schemata.Xml
