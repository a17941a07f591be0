import Schemata.Format.BuildError
import Schemata.Format.Report
import Schemata.SaveFile.Basic
import Schemata.Text.Blank

/-!
# The save file of a schema

The selected tables are numbered from one on, each followed by its columns. A reference into a table
that is not selected is left out with a warning. Names and defaults must survive the way through
lines, delimiters and trimming.
-/
namespace Schemata.SaveFile
open Text

/-- The numbers given so far, the latest first. -/
structure Numbers where
  tables : List (TableId × Nat) := []
  fields : List (FieldId × Nat) := []
  next : Nat := 1

def hasLineBreak (s : String) : Bool := s.toList.any fun c => c == '\n' || c == '\r'

/-- The name of a table stands alone on a line, where blanks around it are lost. -/
def checkTableName (name : String) : Except BuildError Unit :=
  if name.isEmpty || trim name.toList != name.toList || hasLineBreak name then
    .error (.unrepresentableName name)
  else .ok ()

/-- The name of a field stands between delimiters, and its default runs to the end of the line. -/
def checkField (f : Field) : Except BuildError Unit :=
  if f.name.isEmpty || f.name.toList.contains delimiter || hasLineBreak f.name then
    .error (.unrepresentableName f.name)
  else if hasLineBreak f.default then .error (.unrepresentableDefault f.name)
  else .ok ()

namespace Numbers

def table? (n : Numbers) (id : TableId) : Option Nat := n.tables.lookup id

def field? (n : Numbers) (id : FieldId) : Option Nat := n.fields.lookup id

/-- The number of the field that a field references, if that one is numbered. -/
def foreign? (n : Numbers) (f : Field) : Option Nat := f.foreign.bind n.field?

def table (n : Numbers) (id : TableId) : Except BuildError Nat :=
  match n.table? id with
  | some number => .ok number
  | none => .error (.unknownTable id)

def field (n : Numbers) (id : FieldId) : Except BuildError Nat :=
  match n.field? id with
  | some number => .ok number
  | none => .error (.danglingField id)

def addField (s : Schema) (n : Numbers) (id : FieldId) : Except BuildError Numbers := do
  checkField (← s.writtenField id)
  return { n with fields := (id, n.next) :: n.fields, next := n.next + 1 }

def addTable (s : Schema) (n : Numbers) (id : TableId) : Except BuildError Numbers := do
  let t ← s.writtenTable id
  checkTableName t.name
  t.columns.foldlM (addField s)
    { n with tables := (id, n.next) :: n.tables, next := n.next + 1 }

/-- A table that is selected twice keeps its last number. -/
def ofSelection (s : Schema) (selection : List TableId) : Except BuildError Numbers :=
  selection.foldlM (addTable s) {}

end Numbers

def tableBlock (s : Schema) (n : Numbers) (id : TableId) : Except BuildError Block := do
  let t ← s.writtenTable id
  let fields ← t.columns.mapM s.writtenField
  return {
    id := ← n.table id
    name := t.name
    native := ← t.columns.mapM n.field
    related := t.related.filterMap n.table?
    relatedFields := fields.map fun f => (n.foreign? f).getD 0 }

def reference (s : Schema) (n : Numbers) (f : Field) : Except BuildError (Option Reference) := do
  match f.foreign with
  | none => return none
  | some target =>
    match n.field? target with
    | none => return none
    | some field => return some { field, table := ← n.table (← s.writtenField target).table }

def fieldRow (s : Schema) (n : Numbers) (id : FieldId) : Except BuildError Row := do
  let f ← s.writtenField id
  return {
    id := ← n.field id
    name := f.name
    table := ← n.table f.table
    foreign := ← reference s n f
    typeCode := f.dataType.code
    length := f.length
    primaryKey := f.primaryKey
    notNull := !f.allowNull
    default := f.default }

def tableRows (s : Schema) (n : Numbers) (id : TableId) : Except BuildError (List Row) := do
  (← s.writtenTable id).columns.mapM (fieldRow s n)

def numbered (s : Schema) (n : Numbers) (selection : List TableId) :
    Except BuildError SaveFile := do
  let blocks ← selection.mapM (tableBlock s n)
  let rows ← selection.mapM (tableRows s n)
  return { blocks, rows := rows.flatten }

/-- Is the field one whose reference is left out? -/
def isDropped (n : Numbers) (f : Field) : Bool := f.foreign.isSome && (n.foreign? f).isNone

/-- The references of a table that are left out. -/
def droppedReferences (s : Schema) (n : Numbers) (id : TableId) : List Warning :=
  match s.table? id with
  | none => []
  | some t =>
    ((t.columns.filterMap s.field?).filter (isDropped n)).map fun f => .droppedForeignKey f.name

def ofSchema (s : Schema) (selection : List TableId) : Report BuildError SaveFile :=
  match Numbers.ofSelection s selection with
  | .error e => ⟨.error e, []⟩
  | .ok n => ⟨numbered s n selection, selection.flatMap (droppedReferences s n)⟩

end Schemata.SaveFile
