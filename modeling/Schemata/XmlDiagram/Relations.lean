import Schemata.XmlDiagram.Tables

/-!
# The relations of a diagram document

A relation makes a field of its child table reference a field of its parent table. A later relation
for the same field takes the place of an earlier one.
-/
namespace Schemata.XmlDiagram
open Xml

/-- One end of a relation. -/
structure RelationEnd where
  many : Bool
  tableName : String
  table : TableId

def relationEnd (s : Schema) (relation owner : String) (element : Node) :
    Except ParseError RelationEnd := do
  let tableName := textOf (← partOf owner element "tablename")
  match s.tableNamed? tableName with
  | some table => return { many := valueOf element "cardinality" == "many", tableName, table }
  | none => .error (.nonexistentTable relation tableName)

/-- A field that a relation names at one of its ends. -/
def relationField (s : Schema) (relation : String) (e : RelationEnd) (name : String) :
    Except ParseError FieldId :=
  match s.fieldNamed? e.table name with
  | some id => .ok id
  | none => .error (.nonexistentField relation e.tableName name)

def addRelation (s : Schema) (element : Node) : Except ParseError Schema := do
  let name := textOf (← partOf "relation" element "name")
  let parent ← relationEnd s name "parent" (← partOf "relation" element "parent")
  let childElement ← partOf "relation" element "child"
  let child ← relationEnd s name "child" childElement
  let key ← partOf "child" childElement "foreignkey"
  let native ← relationField s name child (textOf key)
  let foreign ← relationField s name parent (valueOf key "references")
  if parent.many && child.many then .error .manyToManyRelation
  else
    let related ← accepted (s.addRelated child.table parent.table)
    return (← accepted (related.schema.bind native foreign)).schema

/-- The schema of a document with this root. -/
def readRoot (root : Node) : Except ParseError Schema := do
  if root.isNamed "diagram" then
    let s ← readTables root
    let part ← onlyChild root "relationships" (.notOneSection "relationships")
    (part.childrenNamed "relation").foldlM addRelation s
  else .error (.badStructure .wrongRoot)

def readSchema (document : DocumentReader) (text : String) : Except ParseError Schema := do
  readRoot (← (document text).mapError .malformedXml)

end Schemata.XmlDiagram
