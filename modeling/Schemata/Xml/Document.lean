import Schemata.Xml.Tag

/-!
# Documents

A document is read piece by piece: comments, instructions, tags and text. The elements that have been
opened and not yet closed are kept in a stack with the children read so far.
-/
namespace Schemata.Xml

structure OpenElement where
  name : Reader.QName
  attributes : List Attribute
  scope : Scope
  /-- The last child first. -/
  children : List Node := []

def OpenElement.node (e : OpenElement) : Node :=
  .element e.name.name e.attributes e.children.reverse

/-- What has been read of a document. -/
structure Outline where
  /-- The innermost element first. -/
  opened : List OpenElement := []
  root : Option Node := none
  /-- Has the one element of the document begun? -/
  begun : Bool := false

namespace Outline

def scope (o : Outline) : Scope :=
  match o.opened with
  | [] => []
  | e :: _ => e.scope

/-- A finished node goes to the innermost open element or becomes the root. -/
def append (o : Outline) (node : Node) : Outline :=
  match o.opened with
  | [] => { o with root := some node }
  | e :: outer => { o with opened := { e with children := node :: e.children } :: outer }

def start (o : Outline) (t : Tag) (e : TagEnd) : Except Fault Outline :=
  match e with
  | .cutOff => .ok { o with begun := true }
  | .closed => do
    let (attributes, _) ← t.finish o.scope
    return { o with begun := true }.append (.element t.name.name attributes [])
  | .opened => do
    let (attributes, scope) ← t.finish o.scope
    return { o with begun := true, opened := { name := t.name, attributes, scope } :: o.opened }

/-- Closes the innermost element, whose name must be written in the same way. -/
def close (o : Outline) (p : Position) (name : Reader.QName) : Except Fault Outline :=
  match o.opened with
  | [] => .error (.unknownToken p)
  | e :: outer =>
    if e.name = name then .ok ({ o with opened := outer }.append e.node)
    else .error (.wrongEndTag e.name.text name.text p)

/-- The root of the finished document. -/
def finish (o : Outline) : Except Fault Node :=
  match o.opened, o.root with
  | _ :: _, _ => .error .unclosedRoot
  | [], some root => .ok root
  | [], none => .error .noRoot

end Outline

def hasDashes : List Char → Bool
  | '-' :: '-' :: _ => true
  | _ :: rest => hasDashes rest
  | [] => false

namespace Reader

/-- A comment after its opening bracket. -/
def comment (start : Position) : Reader Unit := do
  skip 3
  let text ← takeUntil "-->"
  expect "-->"
  if hasDashes text || text.getLast? == some '-' then fail (.dashesInComment start)

/-- An instruction after its opening bracket. -/
def instruction (start : Position) : Reader Unit := do
  if ← startsWith "?xml " then fail (.unexpectedDeclaration start)
  else
    skip 1
    let _ ← name
    skipSpaces
    let _ ← takeUntil "?>"
    expect "?>"

/-- A section of literal text after its opening bracket. -/
def literalSection : Reader Node := do
  skip 8
  let text ← takeUntil "]]>"
  expect "]]>"
  return .text (literalData text)

def endTag (start : Position) (o : Outline) : Reader Outline := do
  skip 1
  let name ← qname
  skipSpaces
  expectOnly '>'
  ofExcept (o.close start name)

def element (o : Outline) : Reader Outline := do
  let (t, e) ← startTag
  ofExcept (o.start t e)

/-- Character data that begins with a character read already. -/
def text (start : Position) (c : Char) : Reader Node := do
  if !isXmlChar c then fail (.badCharacter c start)
  else
    let chars := c :: (← takeChars fun s => s.head? != some '<')
    if Text.occurs "]]>".toList chars then fail (.sectionEndInText (← here))
    else return .text (← ofExcept (characterData start chars))

/-- A piece of an element's content after its first character. -/
def contentPiece (o : Outline) (start : Position) (c : Char) : Reader Outline := do
  if c != '<' then return o.append (← text start c)
  else if ← startsWith "!--" then
    comment start
    return o
  else if ← startsWith "![CDATA[" then return o.append (← literalSection)
  else if ← startsWith "?" then
    instruction start
    return o
  else if ← startsWith "/" then endTag start o
  else
    match (← ahead).head? with
    | none | some '!' => fail (.unknownToken start)
    | some _ => element o

/-- A piece outside the one element after its first character. -/
def outerPiece (o : Outline) (start : Position) (c : Char) : Reader Outline := do
  if isSpace c then return o
  else if c != '<' then fail (.unknownToken start)
  else if ← startsWith "!--" then
    comment start
    return o
  else if ← startsWith "?" then
    instruction start
    return o
  else if o.begun then fail (.unknownToken start)
  else if ← startsWith "!DOCTYPE" then fail .doctype
  else element o

def piece (o : Outline) (start : Position) (c : Char) : Reader Outline :=
  if o.opened.isEmpty then outerPiece o start c else contentPiece o start c

/-- Reads pieces until nothing is left. -/
def outline (o : Outline) (c : Cursor) : Except Fault Outline :=
  match hc : c.rest with
  | [] => .ok o
  | ch :: rest =>
    match piece o c.position ch ⟨rest, c.position.after ch⟩ with
    | .error fault => .error fault
    | .ok (o, c') =>
      have : c'.val.rest.length < c.rest.length := by
        rw [hc]
        exact Nat.lt_succ_of_le c'.property
      outline o c'.val
termination_by c.rest.length

/-- Between the parts of a declaration there are spaces, unless it ends. -/
def declarationSpaces : Reader Unit := do
  match (← ahead).head? with
  | none => pure ()
  | some c =>
    if isSpace c then skipSpaces
    else if ← startsWith "?>" then pure ()
    else fail (.mismatch "a whitespace" c (← here))

/-- The declaration that a document may begin with. -/
def declaration : Reader Unit := do
  skip 5
  declarationSpaces
  if !(← startsWith "version") then fail (.missing "version" (← here))
  let _ ← written
  declarationSpaces
  if ← startsWith "encoding" then
    let _ ← written
    declarationSpaces
  if ← startsWith "standalone" then
    let _ ← written
  skipSpaces
  expect "?>"

/-- A byte order mark and a declaration, if they are there. -/
def opening : Reader Unit := do
  if ← startsWith "\uFEFF" then skip 1
  if ← startsWith "<?xml " then declaration

end Reader

/-- The root element of a text. -/
def Node.ofText (s : String) : Except Fault Node := do
  let (_, c) ← Reader.opening ⟨s.toList, {}⟩
  (← Reader.outline {} c.val).finish

def readDocument : DocumentReader := fun text => (Node.ofText text).mapError Fault.message

end Schemata.Xml
