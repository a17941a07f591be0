import Schemata.Format.BuildError
import Schemata.Text.Case

/-!
# Data definitions

A script creates a database and then tables. Referenced tables should come first, so tables with
fewer references go before those with more; a longer chain of references may still be out of order.
-/
namespace Schemata.Ddl

structure Column where
  name : String
  type : DataType
  length : UInt32
  notNull : Bool
  /-- As it is written in SQL. -/
  default : Option String
  autoIncrement : Bool
deriving DecidableEq, Repr

structure ForeignKey where
  number : Nat
  column : String
  table : String
  target : String
deriving DecidableEq, Repr

structure CreateTable where
  name : String
  columns : List Column
  primaryKey : List String
  foreignKeys : List ForeignKey
deriving DecidableEq, Repr

structure Script where
  database : String
  tables : List CreateTable
deriving DecidableEq, Repr

/-- A default of a truth value is written as a bit, any other one as it stands. -/
def defaultText (type : DataType) (text : String) : Option String :=
  if text.isEmpty then none
  else if type = .boolean then some (if Text.equalFolded text "true" then "1" else "0")
  else some text

def Column.ofField (f : Field) : Column where
  name := f.name
  type := f.dataType
  length := f.length
  notNull := !f.allowNull
  default := defaultText f.dataType f.default
  autoIncrement := f.autoIncrement

/-- The columns of a table that hold references, with what they reference. -/
def boundColumns (t : Table) : List (FieldId × FieldId) :=
  t.columns.filterMap fun id => (t.boundTo? id).map (id, ·)

def foreignKey (s : Schema) (number : Nat) (bound : FieldId × FieldId) :
    Except BuildError ForeignKey := do
  let target ← s.writtenField bound.2
  let native ← s.writtenField bound.1
  let table ← s.writtenTable target.table
  return { number, column := native.name, table := table.name, target := target.name }

/-- The references of a table, numbered from one on in column order. -/
def foreignKeys (s : Schema) (t : Table) : Except BuildError (List ForeignKey) :=
  ((boundColumns t).zipIdx 1).mapM fun (bound, number) => foreignKey s number bound

def createTable (s : Schema) (id : TableId) : Except BuildError CreateTable := do
  let t ← s.writtenTable id
  let fields ← t.columns.mapM s.writtenField
  let key ← (s.primaryKey id).mapM s.writtenField
  return {
    name := t.name
    columns := fields.map .ofField
    primaryKey := key.map (·.name)
    foreignKeys := ← foreignKeys s t }

/-- Fewer references first; of tables with as many, the one selected first. -/
def creationOrder (s : Schema) (selection : List TableId) : List TableId :=
  let count := fun id => ((s.table? id).map (·.foreignKeyCount)).getD 0
  selection.mergeSort fun a b => count a ≤ count b

def script (s : Schema) (selection : List TableId) (database : String) :
    Except BuildError Script := do
  selection.forM fun id => do let _ ← s.writtenTable id
  return { database, tables := ← (creationOrder s selection).mapM (createTable s) }

end Schemata.Ddl
