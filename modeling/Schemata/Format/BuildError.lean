import Schemata.Model.Schema

/-!
# Why an output is refused
-/
namespace Schemata

inductive BuildError
  | missingDatabaseName
  | unknownTable (id : TableId)
  | danglingField (id : FieldId)
  | unrepresentableName (name : String)
  | unrepresentableDefault (field : String)
deriving DecidableEq, Repr

def BuildError.message : BuildError → String
  | missingDatabaseName => "A database name is required for this output format"
  | unknownTable id => "Table " ++ id.text ++ " is not part of the schema"
  | danglingField id => "Field " ++ id.text ++ " is not part of the schema"
  | unrepresentableName name =>
    "The name \"" ++ name ++ "\" cannot be written to this output format"
  | unrepresentableDefault field =>
    "The default value of field \"" ++ field ++ "\" cannot be written to this output format"

namespace Schema

/-- A table that is to be written. -/
def writtenTable (s : Schema) (id : TableId) : Except BuildError Table :=
  match s.table? id with
  | some t => .ok t
  | none => .error (.unknownTable id)

/-- A field that a table to be written refers to. -/
def writtenField (s : Schema) (id : FieldId) : Except BuildError Field :=
  match s.field? id with
  | some f => .ok f
  | none => .error (.danglingField id)

end Schema

end Schemata
