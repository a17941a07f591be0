/-!
# Column data types

Each type has a name in SQL and a code, its place in the list of all types, by which saved schemata
refer to it.
-/
namespace Schemata

inductive DataType
  | varchar | char | boolean | integer | double | timestamp
deriving DecidableEq, Repr

namespace DataType

instance : Inhabited DataType := ⟨varchar⟩

/-- All types in the order of their codes. -/
def all : List DataType := [varchar, char, boolean, integer, double, timestamp]

def code : DataType → Nat
  | varchar => 0
  | char => 1
  | boolean => 2
  | integer => 3
  | double => 4
  | timestamp => 5

def ofCode? (n : Nat) : Option DataType := all[n]?

def sqlName : DataType → String
  | varchar => "VARCHAR"
  | char => "CHAR"
  | boolean => "BOOLEAN"
  | integer => "INTEGER"
  | double => "DOUBLE"
  | timestamp => "TIMESTAMP"

/-- Does the SQL type carry a length in characters? -/
def hasLength : DataType → Bool
  | varchar | char => true
  | _ => false

theorem ofCode?_code (t : DataType) : ofCode? t.code = some t := by cases t <;> rfl

end DataType
end Schemata
