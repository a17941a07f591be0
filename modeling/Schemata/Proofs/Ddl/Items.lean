import Schemata.Proofs.Ddl.Definition

/-!
# The items of a table

Columns, key and references are the items of a table. Its text has them one after the other with a
separator between any two, although the constraints are added group by group: a table that has
constraints has columns before them. What the items are is read off the records of the columns.
-/
namespace Schemata.Ddl
open Schema
variable {s : Schema} {id : TableId} {t : Table}

inductive Item
  | column (c : Column)
  | primaryKey (columns : List String)
  | foreignKey (k : ForeignKey)
deriving DecidableEq

def Item.text (table : String) : Item → String
  | column c => columnText c
  | primaryKey columns => primaryKeyText table columns
  | foreignKey k => foreignKeyText table k

namespace CreateTable

def keyItems (t : CreateTable) : List Item :=
  if t.primaryKey = [] then [] else [.primaryKey t.primaryKey]

def items (t : CreateTable) : List Item :=
  t.columns.map .column ++ t.keyItems ++ t.foreignKeys.map .foreignKey

/-- There are constraints only where there are columns. -/
def Founded (t : CreateTable) : Prop :=
  t.columns = [] → t.primaryKey = [] ∧ t.foreignKeys = []

end CreateTable

/-! ### Separators -/

/-- Further items with the separator before them, nothing if there are none. -/
def continued (l : List String) : String :=
  if l = [] then "" else separator ++ separator.intercalate l

theorem intercalate_append {l : List String} (hl : l ≠ []) (l' : List String) :
    separator.intercalate (l ++ l') = separator.intercalate l ++ continued l' := by
  by_cases hl' : l' = []
  · simp [continued, hl']
  · rw [String.intercalate_append_of_ne_nil hl hl', continued, if_neg hl', String.append_assoc]

theorem keyClause_eq (t : CreateTable) :
    keyClause t = continued (t.keyItems.map (Item.text t.name)) := by
  unfold keyClause CreateTable.keyItems continued
  by_cases h : t.primaryKey = []
  · simp [h]
  · simp [h, Item.text]

theorem referenceClauses_eq (t : CreateTable) :
    referenceClauses t = continued ((t.foreignKeys.map .foreignKey).map (Item.text t.name)) := by
  rw [referenceClauses, continued, List.map_map]
  simp only [List.map_eq_nil_iff]
  rfl

theorem tableText_eq {t : CreateTable} (ht : t.Founded) :
    tableText t = "CREATE TABLE " ++ t.name ++ " (" ++ lineEnd ++
      separator.intercalate (t.items.map (Item.text t.name)) ++ lineEnd ++ ");" ++ lineEnd ++
      lineEnd := by
  have hcolumns : t.columns.map columnText = (t.columns.map .column).map (Item.text t.name) := by
    rw [List.map_map]
    rfl
  have hitems (rest : String) : separator.intercalate (t.columns.map columnText) ++
      (keyClause t ++ (referenceClauses t ++ rest)) =
        separator.intercalate (t.items.map (Item.text t.name)) ++ rest := by
    by_cases h : t.columns = []
    · obtain ⟨hkey, hreferences⟩ := ht h
      simp [keyClause, referenceClauses, CreateTable.items, CreateTable.keyItems, h, hkey,
        hreferences]
    · have hne : (t.columns.map .column).map (Item.text t.name) ≠ [] := by simpa using h
      rw [CreateTable.items, List.map_append, List.map_append, intercalate_append (by simp [h]),
        intercalate_append hne, keyClause_eq, referenceClauses_eq, hcolumns, String.append_assoc,
        String.append_assoc]
  unfold tableText
  simp only [String.append_assoc, hitems]

theorem founded_definition (s : Schema) (id : TableId) : (definition s id).Founded := by
  intro h
  have hcolumns : (s.tableAt id).columns = [] := List.map_eq_nil_iff.1 h
  simp [definition, references, hcolumns]

/-! ### Statements -/

/-- The columns of a table that belong to its primary key. -/
def marked (s : Schema) (t : Table) : List FieldId :=
  t.columns.filter fun f => (s.field? f).any (·.primaryKey)

/-- The columns of a table that reference a field. -/
def bound (s : Schema) (t : Table) : List FieldId :=
  t.columns.filter fun f => (s.field? f).any (·.foreign.isSome)

/-- What the items of a table say. -/
structure States (s : Schema) (t : Table) (columns key references : List String) : Prop where
  columns : List.Forall₂ (fun f line => ∃ a, s.field? f = some a ∧
    line = columnText (.ofField a)) t.columns columns
  key_iff : key ≠ [] ↔ ∃ f ∈ t.columns, ∃ a, s.field? f = some a ∧ a.primaryKey = true
  key : key = [] ∨ ∃ names,
    List.Forall₂ (fun f name => ∃ a, s.field? f = some a ∧ name = a.name) (marked s t) names ∧
      key = ["\tCONSTRAINT " ++ t.name ++ "_PK PRIMARY KEY (" ++ ", ".intercalate names ++ ")"]
  count : references.length = t.foreignKeyCount
  /-- One for each column that references a field, numbered from one on. -/
  references : List.Forall₂ (fun p line => ∃ a g b u, s.field? p.1 = some a ∧
      a.foreign = some g ∧ s.field? g = some b ∧ s.table? b.table = some u ∧
      line = "\tCONSTRAINT " ++ t.name ++ "_FK" ++ toString p.2 ++ " FOREIGN KEY(" ++ a.name ++
        ") REFERENCES " ++ u.name ++ "(" ++ b.name ++ ")") ((bound s t).zipIdx 1) references

section Reachable
variable (hs : Reachable s) (ht : s.table? id = some t)
include hs ht

theorem exists_column {f : FieldId} (hf : f ∈ t.columns) :
    ∃ a, s.field? f = some a ∧ s.fieldAt f = a := by
  obtain ⟨a, ha, -⟩ := ((layout_invariant.holds hs).mem_columns ht f).1 hf
  exact ⟨a, ha, fieldAt_eq ha⟩

theorem marked_eq : marked s t = t.columns.filter fun f => (s.fieldAt f).primaryKey := by
  apply List.filter_congr
  intro f hf
  obtain ⟨a, ha, he⟩ := exists_column hs ht hf
  rw [ha, he, Option.any_some]

theorem map_fst_references : (references s id).map Prod.fst = bound s t := by
  rw [references, tableAt_eq ht, List.map_filterMap, bound, ← List.filterMap_eq_filter]
  apply List.filterMap_congr
  intro f hf
  obtain ⟨a, ha, he⟩ := exists_column hs ht hf
  simp only [Option.guard, ha, he, Option.any_some]
  cases a.foreign <;> rfl

theorem keyItems_definition : (definition s id).keyItems.map (Item.text t.name) =
    if marked s t = [] then []
    else [primaryKeyText t.name ((marked s t).map fun f => (s.fieldAt f).name)] := by
  rw [marked_eq hs ht, CreateTable.keyItems, definition, tableAt_eq ht]
  simp only [List.map_eq_nil_iff]
  split <;> rfl

theorem states_definition : States s t
    ((definition s id).columns.map columnText)
    ((definition s id).keyItems.map (Item.text t.name))
    ((definition s id).foreignKeys.map (foreignKeyText t.name)) where
  columns := by
    rw [definition, tableAt_eq ht, List.map_map, List.forall₂_map_right_iff, List.forall₂_same]
    intro f hf
    obtain ⟨a, ha, he⟩ := exists_column hs ht hf
    exact ⟨a, ha, congrArg (columnText ∘ Column.ofField) he⟩
  key_iff := by
    rw [keyItems_definition hs ht, ne_eq, ite_eq_left_iff]
    constructor
    · intro h
      obtain ⟨f, hf⟩ := List.exists_mem_of_ne_nil (marked s t) fun hnil => h fun hne => absurd hnil hne
      obtain ⟨hf, hkey⟩ := List.mem_filter.1 hf
      obtain ⟨a, ha, -⟩ := exists_column hs ht hf
      rw [ha, Option.any_some] at hkey
      exact ⟨f, hf, a, ha, hkey⟩
    · rintro ⟨f, hf, a, ha, hkey⟩ h
      have hmem : f ∈ marked s t := List.mem_filter.2 ⟨hf, by rw [ha, Option.any_some, hkey]⟩
      cases h (List.ne_nil_of_mem hmem)
  key := by
    rw [keyItems_definition hs ht]
    by_cases hkey : marked s t = []
    · exact .inl (if_pos hkey)
    · refine .inr ⟨(marked s t).map fun f => (s.fieldAt f).name, ?_, ?_⟩
      · rw [List.forall₂_map_right_iff, List.forall₂_same]
        intro f hf
        obtain ⟨a, ha, he⟩ := exists_column hs ht (List.mem_of_mem_filter hf)
        exact ⟨a, ha, congrArg Field.name he⟩
      · rw [if_neg hkey]
        unfold primaryKeyText primaryKeyName
        simp [String.append_assoc]
  count := by
    rw [List.length_map, definition, List.length_map, List.length_zipIdx, length_references hs ht]
  references := by
    rw [← map_fst_references hs ht, List.zipIdx_map, definition, List.map_map,
      List.forall₂_map_left_iff, List.forall₂_map_right_iff, List.forall₂_same]
    rintro ⟨p, number⟩ hp
    obtain ⟨a, b, u, ha, -, hag, hb, hu⟩ := exists_of_mem_references hs
      (List.fst_mem_of_mem_zipIdx hp)
    refine ⟨a, p.2, b, u, ha, hag, hb, hu, ?_⟩
    rw [Function.comp_apply]
    unfold foreignKeyText foreignKeyName foreignKeyOf
    simp only [fieldAt_eq ha, fieldAt_eq hb, tableAt_eq hu, String.append_assoc, Prod.map_apply,
      id_eq]

end Reachable

/-- The statement of a table of any reachable schema. -/
theorem createTable_states (ops : List Operation) (id : TableId) (t : Table)
    (ht : (ofHistory ops).table? id = some t) :
    ∃ d columns key references, createTable (ofHistory ops) id = .ok d ∧
      tableText d = "CREATE TABLE " ++ t.name ++ " (\r\n" ++
        ",\r\n".intercalate (columns ++ key ++ references) ++ "\r\n);\r\n\r\n" ∧
      States (ofHistory ops) t columns key references := by
  have hs : Reachable (ofHistory ops) := ⟨ops, rfl⟩
  generalize ofHistory ops = s at hs ht
  refine ⟨definition s id, _, _, _, createTable_eq_ok hs ht, ?_, states_definition hs ht⟩
  have hname : (definition s id).name = t.name := congrArg Table.name (tableAt_eq ht)
  have hitems : (definition s id).items.map (Item.text (definition s id).name) =
      (definition s id).columns.map columnText ++
        (definition s id).keyItems.map (Item.text t.name) ++
        (definition s id).foreignKeys.map (foreignKeyText t.name) := by
    rw [CreateTable.items, List.map_append, List.map_append, List.map_map, List.map_map, hname]
    rfl
  rw [tableText_eq (founded_definition s id), hitems, hname]
  simp [lineEnd, separator, String.append_assoc]

/-- Courses in rooms, each after another one, with the key moved between the references. -/
def courses : List Operation :=
  [.addTable "Course", .addTable "Room", .addField ⟨1⟩ "no", .addField ⟨0⟩ "code",
    .addField ⟨0⟩ "after", .addField ⟨0⟩ "room", .updateField ⟨1⟩ [.primaryKey true],
    .updateField ⟨3⟩ [.dataType .integer, .primaryKey true], .addRelated ⟨0⟩ ⟨0⟩,
    .addRelated ⟨0⟩ ⟨1⟩, .bind ⟨2⟩ ⟨1⟩, .bind ⟨3⟩ ⟨0⟩, .moveUp ⟨3⟩]

def course : Table where
  name := "Course"
  columns := [⟨1⟩, ⟨3⟩, ⟨2⟩]
  related := [⟨0⟩, ⟨1⟩]
  bindings := ⟨[(⟨2⟩, ⟨1⟩), (⟨3⟩, ⟨0⟩)], by decide⟩

theorem course_states : (ofHistory courses).table? ⟨0⟩ = some course ∧
    ∃ d columns key references, createTable (ofHistory courses) ⟨0⟩ = .ok d ∧
      tableText d = "CREATE TABLE " ++ course.name ++ " (\r\n" ++
        ",\r\n".intercalate (columns ++ key ++ references) ++ "\r\n);\r\n\r\n" ∧
      States (ofHistory courses) course columns key references :=
  ⟨by rfl, createTable_states courses ⟨0⟩ course (by rfl)⟩

end Schemata.Ddl
