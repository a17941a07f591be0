import Schemata.Format.BuildError
import Schemata.Format.ParseError
import Schemata.Format.Report

/-!
# Formats

An input format makes a schema of a text, an output format makes a text of selected tables of a
schema. A format is known by its file extension and by the name of the product that uses it.
-/
namespace Schemata

structure InputFormat where
  extension : String
  productName : String
  read : String → Report ParseError Schema

structure OutputFormat where
  extension : String
  productName : String
  needsDatabase : Bool
  write : Schema → List TableId → Option String → Report BuildError String

/-- The first of the selected tables that the schema does not have. -/
def Schema.firstUnknown? (s : Schema) (selection : List TableId) : Option TableId :=
  selection.find? fun id => (s.table? id).isNone

/-- Writes a selection that has been checked. A database with an empty name is none. -/
def OutputFormat.produce (f : OutputFormat) (s : Schema) (selection : List TableId)
    (database : Option String) : Report BuildError String :=
  let database := database.filter (· != "")
  if f.needsDatabase && database.isNone then ⟨.error .missingDatabaseName, []⟩
  else
    match s.firstUnknown? selection with
    | some id => ⟨.error (.unknownTable id), []⟩
    | none => f.write s selection database

end Schemata
