import Schemata.Ddl.Printer
import Schemata.Disk
import Schemata.Edge.Assembly
import Schemata.Format.Basic
import Schemata.SaveFile.Assembly
import Schemata.SaveFile.Printer
import Schemata.XmlDiagram.Relations

/-!
# Catalogs of formats

A format is looked up by its extension or its product name, without regard to the case of the letters
A to Z. Of several formats that fit, the one entered last is found.
-/
namespace Schemata

structure Catalog where
  /-- In the order in which they were entered. -/
  inputs : List InputFormat := []
  outputs : List OutputFormat := []

/-- A name of a format without blanks around it and then without dots before it. -/
def formatName (id : String) : String :=
  String.ofList ((Text.trim id.toList).dropWhile (· == '.'))

/-- Does the identifier stand for a format with this extension and product name? -/
def namesFormat (id extension productName : String) : Bool :=
  Text.equalFolded (formatName id) extension || Text.equalFolded (formatName id) productName

namespace Catalog

def addInput (c : Catalog) (f : InputFormat) : Catalog := { c with inputs := c.inputs ++ [f] }

def addOutput (c : Catalog) (f : OutputFormat) : Catalog := { c with outputs := c.outputs ++ [f] }

def input? (c : Catalog) (id : String) : Option InputFormat :=
  c.inputs.reverse.find? fun f => namesFormat id f.extension f.productName

def output? (c : Catalog) (id : String) : Option OutputFormat :=
  c.outputs.reverse.find? fun f => namesFormat id f.extension f.productName

/-- The input format for the extension of a path. -/
def inputForPath? (c : Catalog) (path : String) : Option InputFormat := do
  c.input? (← Path.extension? path)

end Catalog

def diagramFormat : InputFormat where
  extension := "edg"
  productName := Edge.signature
  read := Edge.readSchema

def saveInputFormat : InputFormat where
  extension := "sav"
  productName := SaveFile.signature
  read text := .ofExcept (SaveFile.readSchema text)

/-- Diagram documents, given a way to read documents. -/
def xmlFormatWith (document : Xml.DocumentReader) : InputFormat where
  extension := "xml"
  productName := "XML Diagrammer File"
  read text := .ofExcept (XmlDiagram.readSchema document text)

def sqlFormat : OutputFormat where
  extension := "sql"
  productName := "MySQL"
  needsDatabase := true
  write s selection database := .ofExcept (Ddl.writeSchema s selection database)

def saveOutputFormat : OutputFormat where
  extension := "sav"
  productName := "Edge Convert Save"
  needsDatabase := false
  write s selection _ := SaveFile.writeSchema s selection

/-- All formats of this library, given a way to read documents. -/
def Catalog.standardWith (document : Xml.DocumentReader) : Catalog where
  inputs := [diagramFormat, saveInputFormat, xmlFormatWith document]
  outputs := [sqlFormat, saveOutputFormat]

end Schemata
