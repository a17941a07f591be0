import Schemata.Model.Operation
import Schemata.Notify.Delivery

/-!
# Sessions

A schema together with its audience. An operation goes step by step: it looks things up, refuses,
changes one table or one field, and fires an event, in the order in which its steps are listed here.
A refusal ends it where it stands and takes back nothing of what has been done.
-/
namespace Schemata

structure Session where
  schema : Schema := {}
  audience : Audience := {}

/-- An event that was fired, with what its delivery led to. -/
structure Firing where
  event : Event
  notes : List Note

/-- A session in which something is being done, with the events fired so far. -/
structure Stage extends Session where
  fired : List Firing := []

/-- Steps on a stage. They come to a result or to a refusal, and the stage is kept with either. There
is neither if listeners notify each other without end, or if a table or field is not there that is
used without having been looked for. -/
abbrev Procedure (α : Type) := ExceptT SchemaError (StateT Stage Option) α

namespace Procedure

/-- What a procedure comes to, and the stage that it leaves. -/
def start {α : Type} (p : Procedure α) (stage : Stage) : Option (Except SchemaError α × Stage) :=
  p.run.run stage

/-! ### Single steps -/

def schema : Procedure Schema := return (← get).schema

/-- Asks the schema, and refuses as it does. -/
def ask {α : Type} (query : Schema → Except SchemaError α) : Procedure α := do
  match query (← schema) with
  | .ok x => return x
  | .error e => throw e

/-- A table that is looked for. -/
def findTable (id : TableId) : Procedure Table := ask (·.requireTable id)

def findField (id : FieldId) : Procedure Field := ask (·.requireField id)

/-- What is taken to be there. -/
def taken {α : Type} (look : Schema → Option α) : Procedure α := do
  match look (← schema) with
  | some x => return x
  | none => (failure : StateT Stage Option α)

def table (id : TableId) : Procedure Table := taken (·.table? id)

def field (id : FieldId) : Procedure Field := taken (·.field? id)

def change (f : Schema → Schema) : Procedure Unit :=
  modify fun stage => { stage with schema := f stage.schema }

def changeTable (id : TableId) (f : Table → Table) : Procedure Unit := do
  let _ ← table id
  change (·.modifyTable id f)

def changeField (id : FieldId) (f : Field → Field) : Procedure Unit := do
  let _ ← field id
  change (·.modifyField id f)

/-- Delivers an event to whoever listens at this moment. -/
def fire (event : Event) : Procedure Unit := do
  let stage ← get
  match stage.audience.notify event with
  | some (notes, audience) =>
    set ({ stage with audience, fired := stage.fired ++ [⟨event, notes⟩] } : Stage)
  | none => (failure : StateT Stage Option Unit)

/-! ### Operations -/

def addTable (name : String) : Procedure TableId := do
  match (← schema).tableNamed? name with
  | some _ => throw (.duplicateTable name)
  | none =>
    let id : TableId := ⟨(← schema).tables.length⟩
    change fun s => { s with tables := s.tables ++ [{ name }] }
    fire (.tableAdded id)
    return id

def addField (table : TableId) (name : String) : Procedure FieldId := do
  let _ ← findTable table
  match (← schema).fieldNamed? table name with
  | some _ => throw (.duplicateField (← Procedure.table table).name name)
  | none =>
    let id : FieldId := ⟨(← schema).fields.length⟩
    change fun s => { s with fields := s.fields ++ [{ name, table }] }
    changeTable table fun t => { t with columns := t.columns ++ [id] }
    fire (.tableChanged table)
    return id

def updateField (id : FieldId) (settings : List Setting) : Procedure Unit := do
  let _ ← findField id
  changeField id (·.setAll settings)
  fire (.fieldChanged (← field id).table id)
  return

def addRelated (table related : TableId) : Procedure Unit := do
  let _ ← findTable table
  let _ ← findTable related
  if (← Procedure.table table).isRelatedTo related then return
  else
    changeTable table fun t => { t with related := t.related ++ [related] }
    fire (.tableChanged table)
    return

def bindForeign (native foreign : FieldId) : Procedure Unit := do
  let id := (← findField native).table
  let target := (← findField foreign).table
  if (← table id).isRelatedTo target then
    changeTable id fun t => { t with bindings := t.bindings.insert native foreign }
    changeField native fun f => { f with foreign := some foreign }
    fire (.fieldChanged id native)
    return
  else throw (.unrelatedTable (← table id).name (← table target).name)

def unbind (native : FieldId) : Procedure Unit := do
  let id := (← findField native).table
  changeTable id fun t => { t with bindings := t.bindings.erase native }
  changeField native fun f => { f with foreign := none }
  fire (.fieldChanged id native)
  return

def setIndex (id : TableId) (index : String) (field : FieldId) : Procedure Unit := do
  let _ ← findTable id
  let f ← findField field
  if f.table = id then
    changeTable id fun t => { t with indexes := t.indexes.insert index field }
    fire (.tableChanged id)
    return
  else throw (.notOwned (← table id).name f.name)

/-- Exchanges the columns at two places next to each other, unless one of them is past the end. -/
def swapColumns (id : TableId) (source target : Nat) : Procedure Bool := do
  let columns := (← table id).columns
  if columns.length ≤ source ∨ columns.length ≤ target then return false
  else
    changeTable id fun t => { t with columns := swapNext (min source target) t.columns }
    fire (.tableChanged id)
    return true

def moveUp (field : FieldId) : Procedure Bool := do
  let id := (← findField field).table
  match (← table id).position? field with
  | none => return false
  | some 0 => return false
  | some (place + 1) => swapColumns id (place + 1) place

def moveDown (field : FieldId) : Procedure Bool := do
  let id := (← findField field).table
  match (← table id).position? field with
  | none => return false
  | some place => swapColumns id place (place + 1)

end Procedure

/-- The steps of an operation. -/
def Operation.procedure : Operation → Procedure Reply
  | .addTable name => .table <$> Procedure.addTable name
  | .addField table name => .field <$> Procedure.addField table name
  | .updateField field settings => (fun _ => .done) <$> Procedure.updateField field settings
  | .addRelated table related => (fun _ => .done) <$> Procedure.addRelated table related
  | .bind native foreign => (fun _ => .done) <$> Procedure.bindForeign native foreign
  | .unbind native => (fun _ => .done) <$> Procedure.unbind native
  | .setIndex table index field => (fun _ => .done) <$> Procedure.setIndex table index field
  | .moveUp field => .moved <$> Procedure.moveUp field
  | .moveDown field => .moved <$> Procedure.moveDown field

/-- What an operation answers, the events that it fired, and the session afterwards. -/
structure Performance where
  answer : Except SchemaError Reply
  fired : List Firing
  session : Session

/-- All that the events of an operation led to, in order. -/
def Performance.notes (p : Performance) : List Note := p.fired.flatMap (·.notes)

/-- Carries out an operation from its first step to its last. -/
def Session.perform (s : Session) (op : Operation) : Option Performance := do
  let (answer, stage) ← op.procedure.start { s with fired := [] }
  return ⟨answer, stage.fired, stage.toSession⟩

/-- The session after a row of operations, whatever each of them has answered. -/
def Session.performAll (s : Session) : List Operation → Option Session
  | [] => some s
  | op :: ops => do (← s.perform op).session.performAll ops

end Schemata
