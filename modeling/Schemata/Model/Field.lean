import Schemata.Keyed
import Schemata.Model.DataType

/-!
# Fields

A field is a column with its owner and the field it references, if any. Two of its settings go
together: only an INTEGER column counts by itself.
-/
namespace Schemata

/-- A table of a schema, by its place among the tables. -/
structure TableId where
  index : Nat
deriving DecidableEq, Repr

/-- A field of a schema, by its place among the fields of all tables. -/
structure FieldId where
  index : Nat
deriving DecidableEq, Repr

namespace FieldId

instance : LT FieldId := ⟨fun a b => a.index < b.index⟩

instance : DecidableLT FieldId := fun a b => inferInstanceAs (Decidable (a.index < b.index))

theorem lt_def {a b : FieldId} : a < b ↔ a.index < b.index := Iff.rfl

instance : LinearKey FieldId where
  irrefl a := Nat.lt_irrefl a.index
  trans := Nat.lt_trans
  eq_of_not_lt {a b} h h' := by
    cases a
    cases b
    simp only [lt_def] at h h'
    exact congrArg mk (by omega)

end FieldId

structure Field where
  name : String
  table : TableId
  dataType : DataType := .varchar
  length : UInt32 := 1
  /-- Empty if the column has no default. -/
  default : String := ""
  allowNull : Bool := true
  primaryKey : Bool := false
  autoIncrement : Bool := false
  foreign : Option FieldId := none
deriving DecidableEq, Repr

/-- One setting of a field given anew. -/
inductive Setting
  | dataType (type : DataType)
  | length (characters : UInt32)
  | default (text : String)
  | allowNull (on : Bool)
  | primaryKey (on : Bool)
  | autoIncrement (on : Bool)
deriving DecidableEq, Repr

namespace Field

/-- A type other than INTEGER ends counting; counting makes the type INTEGER. -/
def set (f : Field) : Setting → Field
  | .dataType t => { f with dataType := t, autoIncrement := f.autoIncrement && t == .integer }
  | .length n => { f with length := n }
  | .default s => { f with default := s }
  | .allowNull on => { f with allowNull := on }
  | .primaryKey on => { f with primaryKey := on }
  | .autoIncrement on =>
    { f with autoIncrement := on, dataType := if on then .integer else f.dataType }

def setAll (f : Field) (settings : List Setting) : Field := settings.foldl set f

/-- What a setting leaves alone. -/
theorem set_frame (f : Field) (s : Setting) :
    (f.set s).name = f.name ∧ (f.set s).table = f.table ∧ (f.set s).foreign = f.foreign := by
  cases s <;> exact ⟨rfl, rfl, rfl⟩

end Field
end Schemata
