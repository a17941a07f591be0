import Schemata.Format.LineReader
import Schemata.SaveFile.Basic
import Schemata.Text.Case

/-!
# Reading save files

After the signature and one more line come the blocks of the tables. The first line that does not
begin a block ends them, and every line after it that is not blank is a row.
-/
namespace Schemata.SaveFile
open Text LineReader

/-- The numbers in a row of a block. -/
def readIds (label : String) : LineReader (List Nat) := do
  let line ← next .tableBlock
  if startsWith label line then
    let ids := tokens delimiter (afterLabel line)
    match ids.find? fun t => (readWord? (trim t)).isNone with
    | some t => refuse (.badRowId (String.ofList t) label)
    | none => return ids.filterMap fun t => readWord? (trim t)
  else refuse (.noRow label)

theorem forward_readIds (label : String) : Forward (readIds label) := by
  refine (forward_next _).bind fun line => ?_
  split
  · dsimp only
    split
    · exact forward_refuse _
    · exact forward_pure _
  · exact forward_refuse _

/-- The rest of a block after the name of its table. -/
def readBlockBody (id : Nat) (name : String) : LineReader Block := do
  let native ← readIds "NativeFields"
  let related ← readIds "RelatedTables"
  let relatedFields ← readIds "RelatedFields"
  if relatedFields.length = native.length then
    if (← next .tableBlock) = blockEnd then return { id, name, native, related, relatedFields }
    else refuse .noBlockEnd
  else refuse (.unevenRows name native.length relatedFields.length)

/-- A block, of which the header has been read. -/
def readBlock (header : Line) : LineReader Block := do
  let id ← labelledId header
  if (← next .tableBlock) = ['{'] then
    let name := afterLabel (← next .tableBlock)
    if name = [] then throw .blankName else readBlockBody id (String.ofList name)
  else refuse .noBlockStart

theorem forward_readBlock (header : Line) : Forward (readBlock header) := by
  refine (forward_labelledId _).bind fun id => (forward_next _).bind fun line => ?_
  split
  · refine (forward_next _).bind fun line => ?_
    dsimp only
    split
    · exact forward_throw _
    · refine (forward_readIds _).bind fun _ => (forward_readIds _).bind fun _ =>
        (forward_readIds _).bind fun _ => ?_
      split
      · refine (forward_next _).bind fun line => ?_
        split
        · exact forward_pure _
        · exact forward_refuse _
      · exact forward_refuse _
  · exact forward_refuse _

/-- A line where a block may begin; any other line ends the blocks. -/
def step (blocks : List Block) (line : Line) : LineReader (List Block × Bool) := do
  if startsWith "Table: " line then return (blocks ++ [← readBlock line], true)
  else return (blocks, false)

theorem forward_step (blocks : List Block) (line : Line) : Forward (step blocks line) := by
  unfold step
  split
  · exact (forward_readBlock line).bind fun _ => forward_pure _
  · exact forward_pure _

def readBlocks : LineReader (List Block) := do
  expectSignature signature
  let _ ← next .saveHeader
  eachLine step forward_step []

/-- A number in a column of a row. -/
def readNumber (what : RowNumber) (column : Line) : Except LineFault Nat :=
  match readWord? (trim column) with
  | some n => .ok n
  | none => .error (.badNumber what (String.ofList column))

/-- A flag in a column of a row: anything but the word for yes is a no. -/
def readFlag (column : Line) : Bool := equalFolded (String.ofList (trim column)) "true"

/-- The reference in the two columns for it, which are given without blanks. -/
def readReference (name : String) (field table : Line) : Except LineFault (Option Reference) :=
  let none? := fun column : Line => column == "null".toList
  if none? field && none? table then .ok none
  else if none? field || none? table then .error (.halfReference name)
  else do
    let field ← readNumber .relatedFieldId field
    let table ← readNumber .relatedTableId table
    return some { field, table }

/-- A row. The ninth delimiter ends the columns; all that follows it is the default. -/
def readRow (line : Line) : Except LineFault Row :=
  match splitFirst delimiter 9 line with
  | id :: name :: table :: foreignField :: foreignTable :: type :: length :: primaryKey ::
      notNull :: rest => do
    let name := String.ofList name
    let id ← readNumber .fieldId id
    let table ← readNumber .tableId table
    let foreign ← readReference name (trim foreignField) (trim foreignTable)
    let typeCode ← readNumber .dataType type
    let length ← readNumber .length length
    return {
      id, name, table, foreign, typeCode
      length := UInt32.ofNat length
      primaryKey := readFlag primaryKey
      notNull := readFlag notNull
      default := String.ofList (rest.headD []) }
  | columns => .error (.shortRow columns.length)

/-- The rows in the lines after the one with the given number. -/
def readRows (number : Nat) : List Line → Except ParseError (List Row)
  | [] => .ok []
  | line :: rest =>
    if trim line = [] then readRows (number + 1) rest
    else do
      let row ← (readRow line).mapError (.malformed (number + 1))
      return row :: (← readRows (number + 1) rest)

/-- The blocks and rows of a text. -/
def ofText (text : String) : Except ParseError SaveFile :=
  match readBlocks (LineCursor.ofText text) with
  | .error e _ => .error e
  | .ok blocks c => do return { blocks, rows := ← readRows c.number c.rest }

end Schemata.SaveFile
