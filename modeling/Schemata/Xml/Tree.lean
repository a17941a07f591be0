/-!
# Element trees
-/
namespace Schemata.Xml

structure Attribute where
  /-- Only a qualified name has a name space. -/
  space : Option String := none
  name : String
  value : String
deriving DecidableEq, Repr

inductive Node
  | text (content : String)
  | element (name : String) (attributes : List Attribute) (children : List Node)

namespace Node

def isNamed (name : String) : Node → Bool
  | text _ => false
  | element n _ _ => n == name

def children : Node → List Node
  | text _ => []
  | element _ _ children => children

/-- The element children with a name, in order. -/
def childrenNamed (node : Node) (name : String) : List Node :=
  node.children.filter (isNamed name)

/-- The value of an attribute without a name space. -/
def attribute? (name : String) : Node → Option String
  | text _ => none
  | element _ attributes _ =>
    (attributes.find? fun a => a.space.isNone && a.name == name).map (·.value)

mutual

/-- All text below a node, in order. -/
def content : Node → String
  | text s => s
  | element _ _ children => contentOf children

def contentOf : List Node → String
  | [] => ""
  | node :: rest => content node ++ contentOf rest

end

end Node

/-- A way to read documents: what the root element of a text is, or in words why it has none. -/
abbrev DocumentReader := String → Except String Node

end Schemata.Xml
