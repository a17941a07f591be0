import Schemata.Model.Table

/-!
# Schemata

A schema owns its tables and fields and hands out their places as ids. Every change is asked for by
a function that either refuses, and then nothing has changed, or answers with the new schema and the
event to announce.
-/
namespace Schemata

structure Schema where
  tables : List Table := []
  fields : List Field := []
deriving DecidableEq

inductive SchemaError
  | duplicateTable (name : String)
  | duplicateField (table field : String)
  | unknownTable (id : TableId)
  | unknownField (id : FieldId)
  | notOwned (table field : String)
  | unrelatedTable (table related : String)
deriving DecidableEq, Repr

/-- What is announced after a schema has changed. -/
inductive Event
  | tableAdded (table : TableId)
  /-- Columns, relations or indexes of the table changed. -/
  | tableChanged (table : TableId)
  | fieldChanged (table : TableId) (field : FieldId)
deriving DecidableEq, Repr

def TableId.text (id : TableId) : String := "TableId(" ++ toString id.index ++ ")"

def FieldId.text (id : FieldId) : String := "FieldId(" ++ toString id.index ++ ")"

def SchemaError.message : SchemaError → String
  | duplicateTable name => "There are multiple tables called " ++ name
  | duplicateField table field =>
    "Table " ++ table ++ " already has a field called " ++ field
  | unknownTable id => "Unknown table id " ++ id.text
  | unknownField id => "Unknown field id " ++ id.text
  | notOwned table field => "Field " ++ field ++ " does not belong to table " ++ table
  | unrelatedTable table related =>
    "Table " ++ table ++ " is not related to table " ++ related

/-- An accepted change: what it leads to, what it answers, and what there is to announce. -/
structure Change (α : Type) where
  schema : Schema
  reply : α
  event : Option Event

namespace Schema

def tableIds (s : Schema) : List TableId := (List.range s.tables.length).map TableId.mk

def table? (s : Schema) (id : TableId) : Option Table := s.tables[id.index]?

def field? (s : Schema) (id : FieldId) : Option Field := s.fields[id.index]?

def tableNamed? (s : Schema) (name : String) : Option TableId :=
  (s.tables.findIdx? (·.name == name)).map TableId.mk

/-- The column of a table with exactly this name. -/
def fieldNamed? (s : Schema) (table : TableId) (name : String) : Option FieldId := do
  (← s.table? table).columns.find? fun id => (s.field? id).any (·.name == name)

/-- The primary-key columns of a table, in column order. -/
def primaryKey (s : Schema) (table : TableId) : List FieldId :=
  match s.table? table with
  | some t => t.columns.filter fun id => (s.field? id).any (·.primaryKey)
  | none => []

def modifyTable (s : Schema) (id : TableId) (f : Table → Table) : Schema :=
  { s with tables := s.tables.modify id.index f }

def modifyField (s : Schema) (id : FieldId) (f : Field → Field) : Schema :=
  { s with fields := s.fields.modify id.index f }

def requireTable (s : Schema) (id : TableId) : Except SchemaError Table :=
  match s.table? id with
  | some t => .ok t
  | none => .error (.unknownTable id)

def requireField (s : Schema) (id : FieldId) : Except SchemaError Field :=
  match s.field? id with
  | some f => .ok f
  | none => .error (.unknownField id)

def addTable (s : Schema) (name : String) : Except SchemaError (Change TableId) :=
  match s.tableNamed? name with
  | some _ => .error (.duplicateTable name)
  | none =>
    let id : TableId := ⟨s.tables.length⟩
    .ok ⟨{ s with tables := s.tables ++ [{ name }] }, id, some (.tableAdded id)⟩

def addField (s : Schema) (table : TableId) (name : String) :
    Except SchemaError (Change FieldId) := do
  let t ← s.requireTable table
  match s.fieldNamed? table name with
  | some _ => .error (.duplicateField t.name name)
  | none =>
    let id : FieldId := ⟨s.fields.length⟩
    let grown : Schema := { s with fields := s.fields ++ [{ name, table }] }
    return ⟨grown.modifyTable table fun t => { t with columns := t.columns ++ [id] }, id,
      some (.tableChanged table)⟩

/-- Applies settings in order; announced even if there are none. -/
def updateField (s : Schema) (id : FieldId) (settings : List Setting) :
    Except SchemaError (Change Unit) := do
  let f ← s.requireField id
  return ⟨s.modifyField id (·.setAll settings), (), some (.fieldChanged f.table id)⟩

/-- Lets `table` hold references into `related`. Asking again changes and announces nothing. -/
def addRelated (s : Schema) (table related : TableId) : Except SchemaError (Change Unit) := do
  let t ← s.requireTable table
  let _ ← s.requireTable related
  if t.isRelatedTo related then return ⟨s, (), none⟩
  else
    return ⟨s.modifyTable table fun t => { t with related := t.related ++ [related] }, (),
      some (.tableChanged table)⟩

/-- Makes `native` reference `foreign`, whose table must be related to that of `native`. -/
def bind (s : Schema) (native foreign : FieldId) : Except SchemaError (Change Unit) := do
  let table := (← s.requireField native).table
  let target := (← s.requireField foreign).table
  let t ← s.requireTable table
  if t.isRelatedTo target then
    let bound := s.modifyTable table fun t => { t with bindings := t.bindings.insert native foreign }
    return ⟨bound.modifyField native fun f => { f with foreign := some foreign }, (),
      some (.fieldChanged table native)⟩
  else
    .error (.unrelatedTable t.name (← s.requireTable target).name)

/-- Ends the reference that `native` holds, if it holds one. -/
def unbind (s : Schema) (native : FieldId) : Except SchemaError (Change Unit) := do
  let table := (← s.requireField native).table
  let freed := s.modifyTable table fun t => { t with bindings := t.bindings.erase native }
  return ⟨freed.modifyField native fun f => { f with foreign := none }, (),
    some (.fieldChanged table native)⟩

/-- Names an index on one of the table's own fields. -/
def setIndex (s : Schema) (table : TableId) (index : String) (field : FieldId) :
    Except SchemaError (Change Unit) := do
  let t ← s.requireTable table
  let f ← s.requireField field
  if f.table = table then
    return ⟨s.modifyTable table fun t => { t with indexes := t.indexes.insert index field }, (),
      some (.tableChanged table)⟩
  else .error (.notOwned t.name f.name)

/-- Exchanges the column at a place with its successor, if it has one. -/
def swapColumns (s : Schema) (table : TableId) (t : Table) (place : Nat) : Change Bool :=
  if place + 1 < t.columns.length then
    ⟨s.modifyTable table fun t => { t with columns := swapNext place t.columns }, true,
      some (.tableChanged table)⟩
  else ⟨s, false, none⟩

/-- Moves a field one column forward; false if it stands first. -/
def moveUp (s : Schema) (field : FieldId) : Except SchemaError (Change Bool) := do
  let table := (← s.requireField field).table
  let t ← s.requireTable table
  match t.position? field with
  | some (place + 1) => return s.swapColumns table t place
  | _ => return ⟨s, false, none⟩

/-- Moves a field one column back; false if it stands last. -/
def moveDown (s : Schema) (field : FieldId) : Except SchemaError (Change Bool) := do
  let table := (← s.requireField field).table
  let t ← s.requireTable table
  match t.position? field with
  | some place => return s.swapColumns table t place
  | none => return ⟨s, false, none⟩

end Schema
end Schemata
