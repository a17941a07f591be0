import Schemata.Xml.Tree
import Schemata.Xml.Value

/-!
# Start tags

The attributes of a tag are read one by one; declarations of name spaces are told apart at once. At
the end of the tag the qualifiers are resolved, those of the attributes first.
-/
namespace Schemata.Xml

def xmlSpace : String := "http://www.w3.org/XML/1998/namespace"

def xmlnsSpace : String := "http://www.w3.org/2000/xmlns/"

/-- The qualifiers in force, each with its name space, the innermost declaration first. -/
abbrev Scope := List (String × String)

structure Tag where
  start : Position
  name : Reader.QName
  /-- Attributes that are no declarations, with their places. -/
  attributes : List (Position × Reader.QName × String) := []
  declared : Scope := []

inductive TagEnd
  | opened | closed
  /-- The text ends before the tag does. -/
  | cutOff
deriving DecidableEq

namespace Tag

/-- A declaration of a qualifier. -/
def declare (t : Tag) (p : Position) (qualifier value : String) : Except Fault Tag :=
  if value = xmlnsSpace then .error (.declaredXmlns p)
  else if qualifier = "xml" && value != xmlSpace then .error (.wrongXmlNamespace p)
  else if qualifier != "xml" && value = xmlSpace then .error (.misnamedXmlNamespace p)
  else if t.declared.any (·.1 == qualifier) then .error (.duplicateNamespace qualifier p)
  else if value = xmlSpace then .ok t
  else .ok { t with declared := t.declared ++ [(qualifier, value)] }

/-- A declaration for names without a qualifier, of which nothing is kept. -/
def declareDefault (t : Tag) (p : Position) (value : String) : Except Fault Tag :=
  if value = xmlSpace then .error (.misnamedXmlNamespace p)
  else if value = xmlnsSpace then .error (.declaredXmlns p)
  else .ok t

def add (t : Tag) (w : Reader.Written) : Except Fault Tag := do
  let value ← attributeValue w.valueStart w.value
  if w.name.qualifier = "xmlns" then t.declare w.start w.name.name value
  else if w.name.name = "xmlns" then t.declareDefault w.start value
  else return { t with attributes := t.attributes ++ [(w.start, w.name, value)] }

/-- The name space of a qualified name. -/
def space (scope : Scope) (p : Position) (qualifier : String) : Except Fault String :=
  if qualifier = "xml" then .ok xmlSpace
  else
    match scope.lookup qualifier with
    | some space => .ok space
    | none => .error (.unknownNamespace qualifier p)

/-- The attributes before this one and this one. -/
def resolve (scope : Scope) (resolved : List Attribute)
    (written : Position × Reader.QName × String) : Except Fault (List Attribute) := do
  let (p, q, value) := written
  let space ← if q.qualifier.isEmpty then pure none else some <$> space scope p q.qualifier
  if resolved.any fun a => a.space == space && a.name == q.name then
    .error (.duplicateAttribute q.name p)
  else return resolved ++ [{ space, name := q.name, value }]

/-- The attributes of the finished tag and the qualifiers in force inside it. -/
def finish (t : Tag) (outer : Scope) : Except Fault (List Attribute × Scope) := do
  let scope := t.declared ++ outer
  let attributes ← t.attributes.foldlM (resolve scope) []
  if !t.name.qualifier.isEmpty then
    let _ ← space scope t.start t.name.qualifier
  return (attributes, scope)

end Tag

namespace Reader

/-- The end of a start tag; only there something may stand without a space before it. -/
def tagEnd : Reader TagEnd := do
  match (← ahead).head? with
  | some '/' =>
    skip 1
    expectOnly '>'
    return .closed
  | _ =>
    let _ ← expectChar "a whitespace" (· == '>')
    return .opened

/-- What follows a space inside a start tag. -/
def tagItem (t : Tag) : Reader (Tag × Option TagEnd) := do
  skipSpaces
  match (← ahead).head? with
  | none => fail .unexpectedEnd
  | some c =>
    if c = '/' || c = '>' then return (t, some (← tagEnd))
    else return (← ofExcept (t.add (← written)), none)

/-- The rest of a start tag after its name. -/
def tagItems (t : Tag) (c : Cursor) : Except Fault ((Tag × TagEnd) × Within c.rest.length) :=
  match hc : c.rest with
  | [] => .ok ((t, .cutOff), ⟨c, by simp [hc]⟩)
  | ch :: rest =>
    if isSpace ch then
      match tagItem t ⟨rest, c.position.after ch⟩ with
      | .error fault => .error fault
      | .ok ((t, some e), c') => .ok ((t, e), ⟨c'.val, Nat.le_succ_of_le c'.property⟩)
      | .ok ((t, none), c') =>
        have : c'.val.rest.length < c.rest.length := by
          rw [hc]
          exact Nat.lt_succ_of_le c'.property
        match tagItems t c'.val with
        | .error fault => .error fault
        | .ok (r, c'') =>
          .ok (r, ⟨c''.val, Nat.le_succ_of_le (Nat.le_trans c''.property c'.property)⟩)
    else
      match tagEnd c with
      | .error fault => .error fault
      | .ok (e, c') => .ok ((t, e), ⟨c'.val, by rw [← hc]; exact c'.property⟩)
termination_by c.rest.length

/-- A start tag after its opening bracket. -/
def startTag : Reader (Tag × TagEnd) := do
  let start ← here
  let name ← qname
  if name.qualifier = "xmlns" then fail (.xmlnsElement start)
  else tagItems { start, name }

end Reader
end Schemata.Xml
