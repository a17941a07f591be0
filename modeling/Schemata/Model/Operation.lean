import Schemata.Model.Schema

/-!
# Operations

The changes of a schema as data, for histories of a schema and for whoever hears of each change.
-/
namespace Schemata

inductive Operation
  | addTable (name : String)
  | addField (table : TableId) (name : String)
  | updateField (field : FieldId) (settings : List Setting)
  | addRelated (table related : TableId)
  | bind (native foreign : FieldId)
  | unbind (native : FieldId)
  | setIndex (table : TableId) (index : String) (field : FieldId)
  | moveUp (field : FieldId)
  | moveDown (field : FieldId)
deriving DecidableEq, Repr

inductive Reply
  | done
  | table (id : TableId)
  | field (id : FieldId)
  | moved (yes : Bool)
deriving DecidableEq, Repr

def Change.map {α β : Type} (f : α → β) (c : Change α) : Change β := ⟨c.schema, f c.reply, c.event⟩

namespace Schema

def apply (s : Schema) : Operation → Except SchemaError (Change Reply)
  | .addTable name => (s.addTable name).map (·.map .table)
  | .addField table name => (s.addField table name).map (·.map .field)
  | .updateField field settings => (s.updateField field settings).map (·.map fun _ => .done)
  | .addRelated table related => (s.addRelated table related).map (·.map fun _ => .done)
  | .bind native foreign => (s.bind native foreign).map (·.map fun _ => .done)
  | .unbind native => (s.unbind native).map (·.map fun _ => .done)
  | .setIndex table index field => (s.setIndex table index field).map (·.map fun _ => .done)
  | .moveUp field => (s.moveUp field).map (·.map .moved)
  | .moveDown field => (s.moveDown field).map (·.map .moved)

end Schema
end Schemata
