import Schemata.Text.Split
import Schemata.Xml.Fault

/-!
# Reading a document from front to back

A reader takes characters from the front of what is left, keeps track of the position, and fails
with the first fault. What it leaves is never longer than what it found, so loops over readers end.
-/
namespace Schemata.Xml
open Text

/-! ### Characters and names -/

def isSpace (c : Char) : Bool := c == ' ' || c == '\t' || c == '\n' || c == '\r'

/-- May the character stand in a document at all? -/
def isXmlChar (c : Char) : Bool :=
  if c.toNat < 0x20 then c == '\t' || c == '\n' || c == '\r'
  else c.toNat != 0xFFFE && c.toNat != 0xFFFF

/-- The characters that a name may start with. -/
def nameStartRanges : List (Nat × Nat) :=
  [(0x3A, 0x3A), (0x41, 0x5A), (0x5F, 0x5F), (0x61, 0x7A), (0xC0, 0xD6), (0xD8, 0xF6),
    (0xF8, 0x2FF), (0x370, 0x37D), (0x37F, 0x1FFF), (0x200C, 0x200D), (0x2070, 0x218F),
    (0x2C00, 0x2FEF), (0x3001, 0xD7FF), (0xF900, 0xFDCF), (0xFDF0, 0xFFFD), (0x10000, 0xEFFFF)]

/-- The characters that a name may only go on with. -/
def nameOnlyRanges : List (Nat × Nat) :=
  [(0x2D, 0x2E), (0x30, 0x39), (0xB7, 0xB7), (0x300, 0x36F), (0x203F, 0x2040)]

def isNameStart (c : Char) : Bool := inRanges nameStartRanges c.toNat

def isNameChar (c : Char) : Bool := isNameStart c || inRanges nameOnlyRanges c.toNat

def isName : List Char → Bool
  | [] => false
  | c :: rest => isNameStart c && rest.all isNameChar

/-! ### Readers -/

structure Cursor where
  rest : List Char
  position : Position := {}

/-- A cursor with at most so many characters left. -/
abbrev Within (n : Nat) := { c : Cursor // c.rest.length ≤ n }

def Reader (α : Type) := (c : Cursor) → Except Fault (α × Within c.rest.length)

namespace Reader
variable {α β : Type}

def bind (r : Reader α) (next : α → Reader β) : Reader β := fun c =>
  match r c with
  | .error fault => .error fault
  | .ok (a, c₁) =>
    match next a c₁.val with
    | .error fault => .error fault
    | .ok (b, c₂) => .ok (b, ⟨c₂.val, Nat.le_trans c₂.property c₁.property⟩)

instance : Monad Reader where
  pure a := fun c => .ok (a, ⟨c, Nat.le_refl _⟩)
  bind := bind

def fail (fault : Fault) : Reader α := fun _ => .error fault

def ofExcept : Except Fault α → Reader α
  | .ok a => pure a
  | .error fault => fail fault

/-- The characters that are left. -/
def ahead : Reader (List Char) := fun c => .ok (c.rest, ⟨c, Nat.le_refl _⟩)

def here : Reader Position := fun c => .ok (c.position, ⟨c, Nat.le_refl _⟩)

def startsWith (text : String) : Reader Bool := do
  return text.toList.isPrefixOf (← ahead)

/-- Takes characters from the front of `rest` while `goesOn` holds of what is left; `before` are
those taken already, back to front. -/
def takeFrom (goesOn : List Char → Bool) (n : Nat) (before : List Char) (p : Position) :
    (rest : List Char) → rest.length ≤ n → List Char × Within n
  | [], h => (before.reverse, ⟨⟨[], p⟩, h⟩)
  | c :: rest, h =>
    if goesOn (c :: rest) then
      takeFrom goesOn n (c :: before) (p.after c) rest (Nat.le_of_succ_le h)
    else (before.reverse, ⟨⟨c :: rest, p⟩, h⟩)

def takeWhile (p : Char → Bool) : Reader (List Char) := fun c =>
  .ok (takeFrom (fun s => s.head?.any p) c.rest.length [] c.position c.rest (Nat.le_refl _))

def skipSpaces : Reader Unit := do
  let _ ← takeWhile isSpace

/-- Takes characters while `goesOn` holds of what is left; all of them must be allowed in a
document. -/
def takeChars (goesOn : List Char → Bool) : Reader (List Char) := do
  let taken ← fun c => .ok (takeFrom (fun s => s.head?.any isXmlChar && goesOn s) c.rest.length []
    c.position c.rest (Nat.le_refl _))
  match (← ahead).head? with
  | some c => if isXmlChar c then return taken else fail (.badCharacter c (← here))
  | none => return taken

/-- Takes the characters before a text. -/
def takeUntil (text : String) : Reader (List Char) :=
  takeChars fun s => !text.toList.isPrefixOf s

/-- Leaves out so many characters. -/
def skip : Nat → Reader Unit
  | 0 => pure ()
  | n + 1 => fun c =>
    match h : c.rest with
    | [] => .ok ((), ⟨c, by simp [h]⟩)
    | ch :: rest =>
      match skip n ⟨rest, c.position.after ch⟩ with
      | .error fault => .error fault
      | .ok (_, c') => .ok ((), ⟨c'.val, by have := c'.property; simp only at this; simp; omega⟩)

def expect (text : String) : Reader Unit := do
  if ← startsWith text then skip text.length else fail (.missing text (← here))

/-- The next character, which must be one of those described. -/
def expectChar (wanted : String) (allowed : Char → Bool) : Reader Char := do
  match (← ahead).head? with
  | none => fail .unexpectedEnd
  | some c =>
    if allowed c then
      skip 1
      return c
    else fail (.mismatch wanted c (← here))

def quotedChar (c : Char) : String := "'" ++ c.toString ++ "'"

def expectOnly (c : Char) : Reader Unit := do
  let _ ← expectChar (quotedChar c) (· == c)

/-! ### Names -/

def name : Reader String := do
  let start ← here
  let chars ← takeWhile isNameChar
  if isName chars then return String.ofList chars else fail (.invalidName start)

/-- A name of at most two parts with a colon between them. -/
structure QName where
  /-- Empty if the name has only one part. -/
  qualifier : String
  name : String
deriving DecidableEq, Repr

def QName.text (q : QName) : String :=
  if q.qualifier.isEmpty then q.name else q.qualifier ++ ":" ++ q.name

/-- The parts of a name, each of which must be a name by itself; the first one may be missing. -/
def QName.ofChars? (chars : List Char) : Option QName :=
  match cut ':' chars with
  | (only, none) => if isName only then some ⟨"", String.ofList only⟩ else none
  | (first, some second) =>
    if (first.isEmpty || isName first) && isName second && !second.contains ':' then
      some ⟨String.ofList first, String.ofList second⟩
    else none

def qname : Reader QName := do
  let start ← here
  match QName.ofChars? (← takeWhile isNameChar) with
  | some q => return q
  | none => fail (.invalidName start)

/-! ### Attributes as written -/

/-- An attribute as it is written. -/
structure Written where
  start : Position
  name : QName
  valueStart : Position
  value : List Char

/-- A name, an equals sign, and a value in quotation marks, in which no tag may start. -/
def written : Reader Written := do
  let start ← here
  let name ← qname
  skipSpaces
  expectOnly '='
  skipSpaces
  let quote ← expectChar "a quote" fun c => c == '"' || c == '\''
  let valueStart ← here
  let value ← takeChars fun s => s.head? != some quote && s.head? != some '<'
  expectOnly quote
  return { start, name, valueStart, value }

end Reader
end Schemata.Xml
