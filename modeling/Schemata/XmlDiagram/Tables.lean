import Schemata.Format.ParseError
import Schemata.Text.Case
import Schemata.Text.Number
import Schemata.Xml.Tree

/-!
# The tables of a diagram document

A diagram document says everything with child elements, trimmed text and trimmed attributes; other
elements and attributes are passed over. The names of the fields of one table must differ even in
lower case.
-/
namespace Schemata.XmlDiagram
open Xml

/-! ### Elements -/

/-- The only child with a name. -/
def onlyChild (node : Node) (name : String) (fault : StructureFault) : Except ParseError Node :=
  match node.childrenNamed name with
  | [child] => .ok child
  | _ => .error (.badStructure fault)

/-- The only child of an element that describes something. -/
def partOf (owner : String) (node : Node) (name : String) : Except ParseError Node :=
  onlyChild node name (.notOneChild owner name)

def trimmed (s : String) : String := String.ofList (Text.trim s.toList)

def textOf (node : Node) : String := trimmed node.content

/-- The value of an attribute; empty if it is missing. -/
def valueOf (node : Node) (name : String) : String := trimmed ((node.attribute? name).getD "")

def isSet (node : Node) (name : String) : Bool := valueOf node name == "true"

/-! ### Tables -/

/-- What the attributes of a field say about its column. -/
structure ColumnType where
  type : DataType
  length : Option UInt32
  counts : Bool
deriving DecidableEq, Repr

def columnType (element : Node) (name : String) : Except ParseError ColumnType :=
  match valueOf element "type" with
  | "string" =>
    let type := if isSet element "fixed" then .char else .varchar
    let size := valueOf element "size"
    match Text.readWord? size.toList with
    | some n => .ok ⟨type, some (UInt32.ofNat n), false⟩
    | none => .error (.badStructure (.badSize name size))
  | "int" => .ok ⟨.integer, none, isSet element "autoincrement"⟩
  | other => .error (.unsupportedDataType other)

def ColumnType.settings (t : ColumnType) (element : Node) : List Setting :=
  [.dataType t.type] ++ (t.length.map .length).toList ++
    [.autoIncrement t.counts, .primaryKey (isSet element "pkey"),
      .allowNull (isSet element "null")]

/-- Has the table a column with this name up to letter case? -/
def hasColumnLike (s : Schema) (t : Table) (name : String) : Bool :=
  t.columns.any fun id =>
    (s.field? id).any fun f => Text.lowerCase f.name == Text.lowerCase name

def addField (table : TableId) (s : Schema) (element : Node) : Except ParseError Schema := do
  let name := textOf element
  if name.isEmpty then .error .blankName
  else
    let t ← recorded (s.table? table)
    if hasColumnLike s t name then .error (.duplicateField t.name name)
    else
      let type ← columnType element name
      let added ← accepted (s.addField table name)
      return (← accepted
        (added.schema.updateField added.reply (type.settings element))).schema

def addTable (s : Schema) (element : Node) : Except ParseError Schema := do
  let name := textOf (← partOf "table" element "name")
  if name.isEmpty then .error .blankName
  else if (s.tableNamed? name).isSome then .error (.duplicateTable name)
  else
    let fields := (← partOf "table" element "fields").childrenNamed "field"
    if fields.isEmpty then .error (.badStructure (.noFields name))
    else
      let added ← accepted (s.addTable name)
      fields.foldlM (addField added.reply) added.schema

/-- The schema of the table section, still without references. -/
def readTables (root : Node) : Except ParseError Schema := do
  let part ← onlyChild root "tables" (.notOneSection "tables")
  let tables := part.childrenNamed "table"
  if tables.isEmpty then .error (.badStructure .noTables)
  else tables.foldlM addTable {}

end Schemata.XmlDiagram
