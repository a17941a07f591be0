import Schemata.SaveFile.Reader

/-!
# The schema of a save file

Tables come in the order of their blocks. The columns of a table are its native fields as listed,
then the rows that name the table without being listed.
-/
namespace Schemata.SaveFile

/-- What has been made of the file's numbers so far, the latest first. -/
structure Places where
  tables : List (Nat × TableId) := []
  fields : List (Nat × FieldId) := []

/-- A schema in the making. -/
abbrev Draft := Schema × Places

/-- A fault that shows only between records, not on one line. -/
def misfit {α : Type} (fault : LineFault) : Except ParseError α := .error (.malformed 0 fault)

def found {α : Type} (fault : LineFault) : Option α → Except ParseError α
  | some a => .ok a
  | none => misfit fault

def addTable (draft : Draft) (b : Block) : Except ParseError Draft := do
  let (s, places) := draft
  let added ← accepted (s.addTable b.name)
  return (added.schema, { places with tables := (b.id, added.reply) :: places.tables })

def checkOwner (places : Places) (row : Row) : Except ParseError Unit := do
  let _ ← found (.unknownOwner row.name row.table) (places.tables.lookup row.table)

def addRelated (places : Places) (b : Block) (table : TableId) (s : Schema) (related : Nat) :
    Except ParseError Schema := do
  let other ← found (.unknownRelated b.name related) (places.tables.lookup related)
  return (← accepted (s.addRelated table other)).schema

/-- The row of a table under a number that its block lists. -/
def nativeRow (rows : List Row) (b : Block) (native : Nat) : Except ParseError Row :=
  found (.unknownNative b.name native)
    (rows.find? fun row => row.id == native && row.table == b.id)

/-- The rows of a table that its block does not list. -/
def unlistedRows (rows : List Row) (b : Block) : List Row :=
  rows.filter fun row => row.table == b.id && !b.native.contains row.id

def rowSettings (row : Row) (type : DataType) : List Setting :=
  [.dataType type, .length row.length, .allowNull !row.notNull, .primaryKey row.primaryKey,
    .default row.default]

def addColumn (table : TableId) (draft : Draft) (row : Row) : Except ParseError Draft := do
  let (s, places) := draft
  let type ← found (.unknownType row.name row.typeCode) (DataType.ofCode? row.typeCode)
  let added ← accepted (s.addField table row.name)
  let settled ← accepted (added.schema.updateField added.reply (rowSettings row type))
  return (settled.schema, { places with fields := (row.id, added.reply) :: places.fields })

/-- Fills the table of a block: its relations first, then its columns. -/
def fillTable (rows : List Row) (draft : Draft) (b : Block) : Except ParseError Draft := do
  let (s, places) := draft
  let table ← recorded (places.tables.lookup b.id)
  let s ← b.related.foldlM (addRelated places b table) s
  let listed ← b.native.mapM (nativeRow rows b)
  (listed ++ unlistedRows rows b).foldlM (addColumn table) (s, places)

/-- Makes a field reference the one that its row names, which relates the two tables. -/
def bindRow (places : Places) (s : Schema) (row : Row) : Except ParseError Schema := do
  match row.foreign with
  | none => return s
  | some ref =>
    let native ← recorded (places.fields.lookup row.id)
    let target ← found (.unknownForeign row.name ref.field) (places.fields.lookup ref.field)
    let targetTable := (← recorded (s.field? target)).table
    if places.tables.lookup ref.table = some targetTable then
      let table := (← recorded (s.field? native)).table
      let related ← accepted (s.addRelated table targetTable)
      return (← accepted (related.schema.bind native target)).schema
    else misfit (.foreignElsewhere row.name ref.field ref.table)

def toSchema (file : SaveFile) : Except ParseError Schema := do
  let draft ← file.blocks.foldlM addTable ({}, {})
  file.rows.forM (checkOwner draft.2)
  let (s, places) ← file.blocks.foldlM (fillTable file.rows) draft
  file.rows.foldlM (bindRow places) s

def readSchema (text : String) : Except ParseError Schema := do
  (← ofText text).toSchema

end Schemata.SaveFile
