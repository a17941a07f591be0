import Schemata.Format.Catalog
import Schemata.Format.Importer
import Schemata.Xml.Document

/-!
# Conversions

A conversion reads a source in one format and writes all its tables in another. Both formats are
looked up before anything is read.
-/
namespace Schemata

inductive ConvertError
  | unknownInput (id : String)
  | unknownOutput (id : String)
  | parse (error : ParseError)
  | build (error : BuildError)
deriving DecidableEq, Repr

def ConvertError.message : ConvertError → String
  | unknownInput id => "Unknown input format: " ++ id
  | unknownOutput id => "Unknown output format: " ++ id
  | parse error => error.message
  | build error => error.message

structure Conversion where
  input : InputFormat
  output : OutputFormat

def Catalog.conversion (c : Catalog) (source target : String) : Except ConvertError Conversion :=
  match c.input? source with
  | none => .error (.unknownInput source)
  | some input =>
    match c.output? target with
    | none => .error (.unknownOutput target)
    | some output => .ok { input, output }

/-- Converts a source, given what reading a file leads to. -/
def Conversion.run (c : Conversion) (readFile : String → Except FileFault String)
    (source : Source) (database : Option String) : Report ConvertError String := do
  let text ← (source.load readFile).mapError .parse
  let s ← (c.input.read text).mapError .parse
  (c.output.produce s s.tableIds database).mapError .build

/-- Converts a text between two formats of the catalog. -/
def Catalog.convert (c : Catalog) (text source target : String) (database : Option String) :
    Report ConvertError String := do
  let conversion ← c.conversion source target
  conversion.run (fun _ => .error .notFound) (.text text) database

/-- Converts a text between two formats of this library, and says in words why it cannot. -/
def convertDiagramWith (document : Xml.DocumentReader) (text source target : String)
    (database : Option String) : Report String String :=
  ((Catalog.standardWith document).convert text source target database).mapError
    ConvertError.message

/-! ### With the library's own reader of documents -/

def xmlFormat : InputFormat := xmlFormatWith Xml.readDocument

def Catalog.standard : Catalog := .standardWith Xml.readDocument

def convertDiagram (text source target : String) (database : Option String) :
    Report String String := convertDiagramWith Xml.readDocument text source target database

end Schemata
