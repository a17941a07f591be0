import Schemata.Proofs.Faults
import Schemata.XmlDiagram.Tables

/-!
# The rules of the table section

A rule is about one element, given those of its kind before it. The faults of an element are listed
in the order in which the rules are held against it.
-/
namespace Schemata.XmlDiagram
open Xml
variable {done : List Node} {element : Node}

/-! ### What the elements say -/

def tableElements (root : Node) : List Node :=
  (root.childrenNamed "tables").flatMap (·.childrenNamed "table")

/-- The name that a table element gives; empty if it gives none. -/
def tableName (element : Node) : String :=
  ((element.childrenNamed "name").head?.map textOf).getD ""

def fieldElements (element : Node) : List Node :=
  (element.childrenNamed "fields").flatMap (·.childrenNamed "field")

/-- The field that a field element describes. Only texts have a length of their own, and only
numbers count. -/
def describedField (table : TableId) (element : Node) : Field where
  name := textOf element
  table := table
  dataType :=
    if valueOf element "type" = "int" then .integer
    else if isSet element "fixed" then .char else .varchar
  length :=
    if valueOf element "type" = "int" then 1
    else .ofNat ((Text.readWord? (valueOf element "size").toList).getD 1)
  allowNull := isSet element "null"
  primaryKey := isSet element "pkey"
  autoIncrement := valueOf element "type" == "int" && isSet element "autoincrement"

/-! ### The rules -/

/-- A field element that may follow the field elements `done` of its table. -/
structure LawfulField (done : List Node) (element : Node) : Prop where
  named : textOf element ≠ ""
  fresh : ∀ e ∈ done, Text.lowerCase (textOf e) ≠ Text.lowerCase (textOf element)
  typed : valueOf element "type" = "string" ∧
      (∃ n, Text.readWord? (valueOf element "size").toList = some n) ∨
    valueOf element "type" = "int"

/-- A table element that may follow the table elements `done`. -/
structure LawfulTable (done : List Node) (element : Node) : Prop where
  oneName : (element.childrenNamed "name").length = 1
  named : tableName element ≠ ""
  fresh : ∀ e ∈ done, tableName e ≠ tableName element
  onePart : (element.childrenNamed "fields").length = 1
  fields : fieldElements element ≠ []
  lawful : ∀ before e after, fieldElements element = before ++ e :: after → LawfulField before e

/-- A root element with a table section in order. -/
structure LawfulRoot (root : Node) : Prop where
  name : root.isNamed "diagram" = true
  oneSection : (root.childrenNamed "tables").length = 1
  tables : tableElements root ≠ []
  lawful : ∀ before e after, tableElements root = before ++ e :: after → LawfulTable before e

/-! ### Faults -/

def typeFaults (element : Node) : List ParseError :=
  if valueOf element "type" = "string" then
    faultIf (Text.readWord? (valueOf element "size").toList = none)
      (.badStructure (.badSize (textOf element) (valueOf element "size")))
  else
    faultIf (valueOf element "type" ≠ "int") (.unsupportedDataType (valueOf element "type"))

/-- The faults of a field element of a table with this name. -/
def fieldFaults (table : String) (done : List Node) (element : Node) : List ParseError :=
  faultIf (textOf element = "") .blankName ++
    (faultIf (∃ e ∈ done, Text.lowerCase (textOf e) = Text.lowerCase (textOf element))
        (.duplicateField table (textOf element)) ++
      typeFaults element)

def tableFaults (done : List Node) (element : Node) : List ParseError :=
  faultIf ((element.childrenNamed "name").length ≠ 1)
      (.badStructure (.notOneChild "table" "name")) ++
    (faultIf (tableName element = "") .blankName ++
      (faultIf (∃ e ∈ done, tableName e = tableName element)
          (.duplicateTable (tableName element)) ++
        (faultIf ((element.childrenNamed "fields").length ≠ 1)
            (.badStructure (.notOneChild "table" "fields")) ++
          (faultIf (fieldElements element = []) (.badStructure (.noFields (tableName element))) ++
            faultsAlong (fieldFaults (tableName element)) [] (fieldElements element)))))

/-- The faults of the whole table section. -/
def rootFaults (root : Node) : List ParseError :=
  faultIf (root.isNamed "diagram" ≠ true) (.badStructure .wrongRoot) ++
    (faultIf ((root.childrenNamed "tables").length ≠ 1) (.badStructure (.notOneSection "tables")) ++
      (faultIf (tableElements root = []) (.badStructure .noTables) ++
        faultsAlong tableFaults [] (tableElements root)))

theorem typeFaults_eq_nil : typeFaults element = [] ↔
    valueOf element "type" = "string" ∧
        (∃ n, Text.readWord? (valueOf element "size").toList = some n) ∨
      valueOf element "type" = "int" := by
  unfold typeFaults
  by_cases h : valueOf element "type" = "string"
  · rw [if_pos h, faultIf_eq_nil, ← ne_eq, Option.ne_none_iff_exists']
    simp [h]
  · rw [if_neg h, faultIf_eq_nil]
    simp [h]

theorem fieldFaults_eq_nil {table : String} :
    fieldFaults table done element = [] ↔ LawfulField done element := by
  simp only [fieldFaults, List.append_eq_nil_iff, faultIf_eq_nil, typeFaults_eq_nil, not_exists,
    not_and]
  exact ⟨fun ⟨hn, hf, ht⟩ => ⟨hn, hf, ht⟩, fun h => ⟨h.named, h.fresh, h.typed⟩⟩

theorem tableFaults_eq_nil : tableFaults done element = [] ↔ LawfulTable done element := by
  simp only [tableFaults, List.append_eq_nil_iff, faultIf_eq_nil, faultsAlong_eq_nil,
    List.nil_append, fieldFaults_eq_nil, not_exists, not_and, not_not]
  exact ⟨fun ⟨hone, hn, hf, hpart, hfs, hl⟩ => ⟨hone, hn, hf, hpart, hfs, hl⟩,
    fun h => ⟨h.oneName, h.named, h.fresh, h.onePart, h.fields, h.lawful⟩⟩

theorem rootFaults_eq_nil {root : Node} : rootFaults root = [] ↔ LawfulRoot root := by
  simp only [rootFaults, List.append_eq_nil_iff, faultIf_eq_nil, faultsAlong_eq_nil,
    List.nil_append, tableFaults_eq_nil, not_not]
  exact ⟨fun ⟨hn, hone, ht, hl⟩ => ⟨hn, hone, ht, hl⟩,
    fun h => ⟨h.name, h.oneSection, h.tables, h.lawful⟩⟩

def columnElement (type name : String) : Node :=
  .element "field" [{ name := "type", value := type }] [.text name]

/-- A document with one table. -/
def authors (columns : List Node) : Node :=
  .element "diagram" []
    [.element "tables" []
      [.element "table" []
        [.element "name" [] [.text " Author "], .element "fields" [] columns]]]

example : rootFaults (authors [columnElement "int" "id", columnElement "int" "born"]) = [] := by
  decide

-- the name counts before the type
example : rootFaults (authors [columnElement "int" "id", columnElement "text" "ID"]) =
    [.duplicateField "Author" "ID", .unsupportedDataType "text"] := by decide

end Schemata.XmlDiagram
