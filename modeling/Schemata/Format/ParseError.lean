import Schemata.Model.Schema

/-!
# Why an input is refused

Causes and their wording. Faults of a line come with its number; faults that show only when the
records of a file are put together have line 0.
-/
namespace Schemata

/-- What a text can end inside of. -/
inductive Part
  | saveHeader | tableBlock | figureBlock | connectorBlock
deriving DecidableEq, Repr

def Part.text : Part → String
  | saveHeader => "save file header"
  | tableBlock => "table block"
  | figureBlock => "figure block"
  | connectorBlock => "connector block"

/-- The numbers in a field row. -/
inductive RowNumber
  | fieldId | tableId | relatedFieldId | relatedTableId | dataType | length
deriving DecidableEq, Repr

def RowNumber.text : RowNumber → String
  | fieldId => "field id"
  | tableId => "table id"
  | relatedFieldId => "related field id"
  | relatedTableId => "related table id"
  | dataType => "data type"
  | length => "character length"

inductive LineFault
  | blockEnded (part : Part) (keyword : String)
  | noId (found : String)
  | notQuoted (line : String)
  | noText
  | figureTwice (id : Nat)
  | noRow (label : String)
  | badRowId (found label : String)
  | noBlockStart
  | noBlockEnd
  | unevenRows (table : String) (native related : Nat)
  | shortRow (columns : Nat)
  | badNumber (what : RowNumber) (found : String)
  | halfReference (field : String)
  | unknownOwner (field : String) (table : Nat)
  | unknownRelated (table : String) (related : Nat)
  | unknownNative (table : String) (native : Nat)
  | unknownType (field : String) (code : Nat)
  | unknownForeign (field : String) (foreign : Nat)
  | foreignElsewhere (field : String) (foreign table : Nat)
deriving DecidableEq, Repr

def LineFault.message : LineFault → String
  | blockEnded part keyword => part.text ++ " has no " ++ keyword ++ " line"
  | noId found => "expected an integer id, found \"" ++ found ++ "\""
  | notQuoted line => "expected a quoted value in \"" ++ line ++ "\""
  | noText => "expected a Text line after the figure style"
  | figureTwice id => "figure id " ++ toString id ++ " is used twice"
  | noRow label => "expected a " ++ label ++ " row"
  | badRowId found label => "invalid id \"" ++ found ++ "\" in " ++ label ++ " row"
  | noBlockStart => "expected \x7b after the table header"
  | noBlockEnd => "expected \x7d at the end of the table block"
  | unevenRows table native related =>
    "table " ++ table ++ " has " ++ toString native ++ " native fields but " ++
      toString related ++ " related field entries"
  | shortRow columns => "field row has " ++ toString columns ++ " columns, expected at least 9"
  | badNumber what found => "invalid " ++ what.text ++ " \"" ++ found ++ "\""
  | halfReference field => "field " ++ field ++ " has a half-specified foreign key"
  | unknownOwner field table => "field " ++ field ++ " belongs to unknown table " ++ toString table
  | unknownRelated table related =>
    "table " ++ table ++ " lists unknown related table " ++ toString related
  | unknownNative table native => "table " ++ table ++ " lists unknown field " ++ toString native
  | unknownType field code => "field " ++ field ++ " has unknown data type " ++ toString code
  | unknownForeign field foreign =>
    "field " ++ field ++ " references unknown field " ++ toString foreign
  | foreignElsewhere field foreign table =>
    "field " ++ field ++ " references field " ++ toString foreign ++ " outside table " ++
      toString table

/-- What the elements of a diagram document can lack. -/
inductive StructureFault
  | wrongRoot
  | notOneSection (name : String)
  | noTables
  | notOneChild (owner child : String)
  | noFields (table : String)
  | badSize (field size : String)
deriving DecidableEq, Repr

def StructureFault.message : StructureFault → String
  | wrongRoot => "Root element must be \"diagram\"."
  | notOneSection name => "There must be only one \"" ++ name ++ "\" element."
  | noTables => "The file contains no table definitions."
  | notOneChild owner child =>
    "Each " ++ owner ++ " must have exactly one \"" ++ child ++ "\" element."
  | noFields table => "Table \"" ++ table ++ "\" must have at least one field."
  | badSize field size => "The field \"" ++ field ++ "\" has an invalid size \"" ++ size ++ "\"."

inductive ParseError
  | noSource
  | unreadable
  | wrongFileType (expected : String)
  | unexpectedEnd (part : Part)
  | malformed (line : Nat) (fault : LineFault)
  | malformedXml (reason : String)
  | badStructure (fault : StructureFault)
  | containsRelations
  | blankName
  | duplicateTable (name : String)
  | compositeAttributes
  | manyToMany (first second : String)
  | multipleTables (name : String)
  | duplicateField (table field : String)
  | unsupportedDataType (name : String)
  | nonexistentTable (relation table : String)
  | nonexistentField (relation table field : String)
  | manyToManyRelation
  | schema (error : SchemaError)
  /-- Something recorded earlier in the same run is not there any more; no input leads here. -/
  | recordLost
deriving DecidableEq, Repr

def ParseError.message : ParseError → String
  | noSource => "No input was selected"
  | unreadable => "Unable to read the input file"
  | wrongFileType expected => "The input is not a " ++ expected
  | unexpectedEnd part => "Unexpected end of input inside " ++ part.text
  | malformed line fault => "Line " ++ toString line ++ ": " ++ fault.message
  | malformedXml reason => "The input is not well-formed XML: " ++ reason
  | badStructure fault => fault.message
  | containsRelations => "The diagram contains relations. Please resolve them and try again."
  | blankName =>
    "There are entities or attributes with blank names in this diagram. " ++
      "Please provide names for them and try again."
  | duplicateTable name =>
    "There are multiple tables called " ++ name ++
      " in this diagram. Please rename all but one of them and try again."
  | compositeAttributes =>
    "The diagram contains composite attributes. Please resolve them and try again."
  | manyToMany first second =>
    "There is a many-many relationship between tables \"" ++ first ++ "\" and \"" ++ second ++
      "\". Please resolve this and try again."
  | multipleTables name =>
    "The attribute " ++ name ++
      " is connected to multiple tables. Please resolve this and try again."
  | duplicateField table field =>
    "No two fields in table \"" ++ table ++ "\" may have the same name \"" ++ field ++ "\""
  | unsupportedDataType name => "The datatype \"" ++ name ++ "\" is not supported by this parser."
  | nonexistentTable relation table =>
    "The relation \"" ++ relation ++ "\" references nonexistent table \"" ++ table ++ "\""
  | nonexistentField relation table field =>
    "The relation \"" ++ relation ++ "\" references nonexistent field \"" ++ table ++ "." ++
      field ++ "\""
  | manyToManyRelation => "Many-to-many relations are not supported by this software."
  | schema error => error.message
  | recordLost => "A record of the input was lost"

/-! ### Putting a schema together

A format's own records refer to each other by ids of the file. What the schema refuses is a fault of
the input; a record that was noted before must be found again. -/

section
variable {α : Type}

def accepted (answer : Except SchemaError α) : Except ParseError α := answer.mapError .schema

def recorded : Option α → Except ParseError α
  | some a => .ok a
  | none => .error .recordLost

end

end Schemata
