import Schemata.Ddl.Statement

/-!
# Writing data definitions

Lines end with a carriage return and a line feed. Inside a table, columns and constraints are items
with one comma between them; constraints bring the comma before them along.
-/
namespace Schemata.Ddl

def lineEnd : String := "\r\n"

def typeText (c : Column) : String :=
  if c.type.hasLength then c.type.sqlName ++ "(" ++ toString c.length.toNat ++ ")"
  else c.type.sqlName

def columnText (c : Column) : String :=
  "\t" ++ c.name ++ " " ++ typeText c ++ (if c.notNull then " NOT NULL" else "") ++
    (match c.default with
      | some text => " DEFAULT " ++ text
      | none => "") ++
    (if c.autoIncrement then " AUTO_INCREMENT" else "")

def primaryKeyName (table : String) : String := table ++ "_PK"

def foreignKeyName (table : String) (number : Nat) : String := table ++ "_FK" ++ toString number

def primaryKeyText (table : String) (columns : List String) : String :=
  "\tCONSTRAINT " ++ primaryKeyName table ++ " PRIMARY KEY (" ++ ", ".intercalate columns ++ ")"

def foreignKeyText (table : String) (k : ForeignKey) : String :=
  "\tCONSTRAINT " ++ foreignKeyName table k.number ++ " FOREIGN KEY(" ++ k.column ++
    ") REFERENCES " ++ k.table ++ "(" ++ k.target ++ ")"

/-- What stands between two items of a table. -/
def separator : String := "," ++ lineEnd

/-- The constraint for the key columns, after the columns, if there are any. -/
def keyClause (t : CreateTable) : String :=
  if t.primaryKey = [] then "" else separator ++ primaryKeyText t.name t.primaryKey

/-- The constraints for the references, after all that precedes them, if there are any. -/
def referenceClauses (t : CreateTable) : String :=
  if t.foreignKeys = [] then ""
  else separator ++ separator.intercalate (t.foreignKeys.map (foreignKeyText t.name))

def tableText (t : CreateTable) : String :=
  "CREATE TABLE " ++ t.name ++ " (" ++ lineEnd ++
    separator.intercalate (t.columns.map columnText) ++ keyClause t ++ referenceClauses t ++
    lineEnd ++ ");" ++ lineEnd ++ lineEnd

def scriptText (script : Script) : String :=
  "CREATE DATABASE " ++ script.database ++ ";" ++ lineEnd ++ "USE " ++ script.database ++ ";" ++
    lineEnd ++ String.join (script.tables.map tableText)

/-- The script for the selected tables, in a database that has to be named. -/
def writeSchema (s : Schema) (selection : List TableId) (database : Option String) :
    Except BuildError String :=
  match database with
  | none => .error .missingDatabaseName
  | some name => (script s selection name).map scriptText

end Schemata.Ddl
