import Schemata.Text.Number

/-!
# Why a text is no well-formed XML

Each fault says where in the text it shows, by row and column.
-/
namespace Schemata.Xml

/-- Rows and columns count from one; a row ends with a line feed. -/
structure Position where
  row : Nat := 1
  column : Nat := 1
deriving DecidableEq, Repr

/-- The position after one more character. -/
def Position.after (p : Position) (c : Char) : Position :=
  if c = '\n' then ⟨p.row + 1, 1⟩ else { p with column := p.column + 1 }

def Position.text (p : Position) : String := toString p.row ++ ":" ++ toString p.column

inductive Fault
  | unexpectedEnd
  | noRoot
  | unclosedRoot
  | doctype
  | unknownToken (place : Position)
  | unexpectedDeclaration (place : Position)
  | invalidName (place : Position)
  /-- Some fixed text was due. -/
  | missing (text : String) (place : Position)
  /-- One of the characters that `wanted` describes was due, and `found` stands there. -/
  | mismatch (wanted : String) (found : Char) (place : Position)
  | dashesInComment (place : Position)
  | sectionEndInText (place : Position)
  | badCharacter (c : Char) (place : Position)
  | unknownEntity (name : String) (place : Position)
  | malformedReference (place : Position)
  | wrongEndTag (opened closed : String) (place : Position)
  | unknownNamespace (name : String) (place : Position)
  | duplicateAttribute (name : String) (place : Position)
  | duplicateNamespace (name : String) (place : Position)
  /-- The name space of declarations was given another name. -/
  | declaredXmlns (place : Position)
  | wrongXmlNamespace (place : Position)
  | misnamedXmlNamespace (place : Position)
  | xmlnsElement (place : Position)
deriving DecidableEq, Repr

/-- The first byte of a character in UTF-8, as the character with that number. -/
def leadByte (c : Char) : Char :=
  let n := c.toNat
  if n < 0x80 then c
  else if n < 0x800 then Char.ofNat (0xC0 + n / 0x40)
  else if n < 0x10000 then Char.ofNat (0xE0 + n / 0x1000)
  else Char.ofNat (0xF0 + n / 0x40000)

/-- A control character or a non-character in visible form. -/
def visible (c : Char) : String :=
  if c.toNat = 0 then "\\0"
  else "\\u\x7b" ++ String.ofList (Nat.toDigits 16 c.toNat) ++ "\x7d"

def Fault.message : Fault → String
  | unexpectedEnd => "unexpected end of stream"
  | noRoot => "the document does not have a root node"
  | unclosedRoot => "the root node was opened but never closed"
  | doctype => "XML with DTD detected"
  | unknownToken p => "unknown token at " ++ p.text
  | unexpectedDeclaration p => "unexpected XML declaration at " ++ p.text
  | invalidName p => "invalid name token at " ++ p.text
  | missing text p => "expected '" ++ text ++ "' at " ++ p.text
  | mismatch wanted found p =>
    "expected " ++ wanted ++ " not '" ++ (leadByte found).toString ++ "' at " ++ p.text
  | dashesInComment p => "comment at " ++ p.text ++ " contains '--'"
  | sectionEndInText p =>
    "']]>' at " ++ p.text ++ " is not allowed inside a character data"
  | badCharacter c p => "a non-XML character '" ++ visible c ++ "' found at " ++ p.text
  | unknownEntity name p => "unknown entity reference '" ++ name ++ "' at " ++ p.text
  | malformedReference p => "malformed entity reference at " ++ p.text
  | wrongEndTag opened closed p =>
    "expected '" ++ opened ++ "' tag, not '" ++ closed ++ "' at " ++ p.text
  | unknownNamespace name p => "an unknown namespace prefix '" ++ name ++ "' at " ++ p.text
  | duplicateAttribute name p => "attribute '" ++ name ++ "' at " ++ p.text ++ " is already defined"
  | duplicateNamespace name p => "namespace '" ++ name ++ "' at " ++ p.text ++ " is already defined"
  | declaredXmlns p =>
    "the 'xmlns' URI is used at " ++ p.text ++ ", but it must not be declared"
  | wrongXmlNamespace p => "'xml' namespace prefix mapped to wrong URI at " ++ p.text
  | misnamedXmlNamespace p =>
    "the 'xml' namespace URI is used for not 'xml' prefix at " ++ p.text
  | xmlnsElement p => "the 'xmlns' prefix is used at " ++ p.text ++ ", but it must not be"

end Schemata.Xml
