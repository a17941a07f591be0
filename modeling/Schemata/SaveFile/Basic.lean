import Schemata.Text.Number

/-!
# Save files

A save file keeps the tables and fields of a schema under numbers of its own. A table is a block of
lines, a field is a row of columns between delimiters.
-/
namespace Schemata

/-- A field of the file together with its table. -/
structure Reference where
  field : Nat
  table : Nat
deriving DecidableEq, Repr

structure Block where
  id : Nat
  name : String
  /-- The fields of the table in column order. -/
  native : List Nat
  related : List Nat
  /-- For each native field the one that it references, or zero. -/
  relatedFields : List Nat
deriving DecidableEq, Repr

structure Row where
  id : Nat
  name : String
  table : Nat
  foreign : Option Reference
  typeCode : Nat
  length : UInt32
  primaryKey : Bool
  notNull : Bool
  default : String
deriving DecidableEq, Repr

structure SaveFile where
  blocks : List Block := []
  rows : List Row := []
deriving DecidableEq, Repr

namespace SaveFile

def signature : String := "EdgeConvert Save File"

def delimiter : Char := '|'

end SaveFile
end Schemata
