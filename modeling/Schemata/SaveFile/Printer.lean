import Schemata.SaveFile.Numbering
import Schemata.Text.Split

/-!
# Writing save files
-/
namespace Schemata.SaveFile
open Text

def joinIds (ids : List Nat) : Line := [delimiter].intercalate (ids.map decimal)

def blockLines (b : Block) : List Line :=
  ["Table: ".toList ++ decimal b.id,
    ['{'],
    "TableName: ".toList ++ b.name.toList,
    "NativeFields: ".toList ++ joinIds b.native,
    "RelatedTables: ".toList ++ joinIds b.related,
    "RelatedFields: ".toList ++ joinIds b.relatedFields,
    ['}']]

def flag (on : Bool) : Line := if on then "true".toList else "false".toList

def referenceColumns : Option Reference → List Line
  | none => ["null".toList, "null".toList]
  | some ref => [decimal ref.field, decimal ref.table]

def rowColumns (r : Row) : List Line :=
  [decimal r.id, r.name.toList, decimal r.table] ++ referenceColumns r.foreign ++
    [decimal r.typeCode, decimal r.length.toNat, flag r.primaryKey, flag r.notNull,
      r.default.toList]

def rowLine (r : Row) : Line := [delimiter].intercalate (rowColumns r)

def fileLines (file : SaveFile) : List Line :=
  [signature.toList, "#Tables#".toList] ++ file.blocks.flatMap blockLines ++
    ["#Fields#".toList] ++ file.rows.map rowLine

/-- Each line ends with a line feed. -/
def unlines (lines : List Line) : List Char := lines.flatMap (· ++ ['\n'])

def render (file : SaveFile) : String := String.ofList (unlines file.fileLines)

/-- The text of a save file for the selected tables of a schema. -/
def writeSchema (s : Schema) (selection : List TableId) : Report BuildError String := do
  return (← ofSchema s selection).render

end Schemata.SaveFile
