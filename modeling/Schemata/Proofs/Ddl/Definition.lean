import Schemata.Ddl.Printer
import Schemata.Proofs.Model.Bindings
import Schemata.Proofs.Model.Selection

/-!
# The definition of a table

Of a reachable schema every table can be defined. Its definition reads off the records of the
columns what the script says: the keys are the columns that their own records mark, and each
reference is named by the two fields that it joins.
-/
namespace Schemata.Ddl
open Schema
variable {s : Schema} {id : TableId} {t : Table} {f g : FieldId}

/-- The columns of a table that reference a field, each with that field. -/
def references (s : Schema) (id : TableId) : List (FieldId × FieldId) :=
  (s.tableAt id).columns.filterMap fun f => (s.fieldAt f).foreign.map (f, ·)

def foreignKeyOf (s : Schema) (number : Nat) (f g : FieldId) : ForeignKey where
  number := number
  column := (s.fieldAt f).name
  table := (s.tableAt (s.fieldAt g).table).name
  target := (s.fieldAt g).name

def definition (s : Schema) (id : TableId) : CreateTable where
  name := (s.tableAt id).name
  columns := (s.tableAt id).columns.map fun f => .ofField (s.fieldAt f)
  primaryKey := ((s.tableAt id).columns.filter fun f => (s.fieldAt f).primaryKey).map fun f =>
    (s.fieldAt f).name
  foreignKeys := ((references s id).zipIdx 1).map fun (bound, number) =>
    foreignKeyOf s number bound.1 bound.2

theorem mem_references {p : FieldId × FieldId} : p ∈ references s id ↔
    p.1 ∈ (s.tableAt id).columns ∧ (s.fieldAt p.1).foreign = some p.2 := by
  obtain ⟨f, g⟩ := p
  simp only [references, List.mem_filterMap, Option.map_eq_some_iff, Prod.mk.injEq]
  constructor
  · rintro ⟨f', hf', g', hg', rfl, rfl⟩
    exact ⟨hf', hg'⟩
  · rintro ⟨hf, hg⟩
    exact ⟨f, hf, g, hg, rfl, rfl⟩

theorem primaryKey_eq (ht : s.table? id = some t) :
    s.primaryKey id = (s.tableAt id).columns.filter fun f => (s.fieldAt f).primaryKey := by
  have hkey (f : FieldId) : (s.field? f).any (·.primaryKey) = (s.fieldAt f).primaryKey := by
    cases ha : s.field? f <;> simp [fieldAt, ha]
  simp only [Schema.primaryKey, ht, tableAt_eq ht, hkey]

theorem mem_creationOrder {selection : List TableId} :
    id ∈ creationOrder s selection ↔ id ∈ selection := List.mem_mergeSort

section Reachable
variable (hs : Reachable s)
include hs

theorem writtenField_column (hf : f ∈ (s.tableAt id).columns) :
    s.writtenField f = .ok (s.fieldAt f) := by
  obtain ⟨a, ha, -⟩ := (layout_invariant.holds hs).mem_columnsAt.1 hf
  rw [fieldAt_eq ha, writtenField_eq_ok, ha]

/-- The map of a table lists just what the records of its columns say. -/
theorem boundColumns_eq (ht : s.table? id = some t) : boundColumns t = references s id := by
  have hl := layout_invariant.holds hs
  rw [boundColumns, references, tableAt_eq ht]
  apply List.filterMap_congr
  intro f hf
  obtain ⟨a, ha, hat⟩ := (hl.mem_columns ht f).1 hf
  have hbound : t.boundTo? f = (s.fieldAt f).foreign := by
    ext g
    rw [bindings_invariant.holds hs id t ht f g, Refers, ha, fieldAt_eq ha]
    simp [hat]
  rw [hbound]

/-- The map of a table has as many entries as columns hold references. -/
theorem length_references (ht : s.table? id = some t) :
    (references s id).length = t.foreignKeyCount := by
  have hl := layout_invariant.holds hs
  rw [foreignKeyCount_eq_countP hl (bindings_invariant.holds hs) ht, references, tableAt_eq ht,
    List.length_filterMap_eq_countP]
  apply List.countP_congr
  intro f hf
  obtain ⟨a, ha, -⟩ := (hl.mem_columns ht f).1 hf
  simp [ha, fieldAt_eq ha]

/-- A reference joins a field of the table with a field that some table owns. -/
theorem exists_of_mem_references {p : FieldId × FieldId} (hp : p ∈ references s id) :
    ∃ a b u, s.field? p.1 = some a ∧ a.table = id ∧ a.foreign = some p.2 ∧ s.field? p.2 = some b ∧
      s.table? b.table = some u := by
  obtain ⟨hf, hg⟩ := mem_references.1 hp
  obtain ⟨a, ha, hat⟩ := (layout_invariant.holds hs).mem_columnsAt.1 hf
  rw [fieldAt_eq ha] at hg
  obtain ⟨_, ⟨b, hb, rfl⟩, -⟩ := references_invariant.holds hs _ a ha _ hg
  obtain ⟨u, hu⟩ := (layout_invariant.holds hs).hasTable hb
  exact ⟨a, b, u, ha, hat, hg, hb, hu⟩

theorem foreignKey_eq_ok (number : Nat) {p : FieldId × FieldId} (hp : p ∈ references s id) :
    foreignKey s number p = .ok (foreignKeyOf s number p.1 p.2) := by
  obtain ⟨a, b, u, ha, -, -, hb, hu⟩ := exists_of_mem_references hs hp
  simp only [foreignKey, bind_eq_ok, writtenField_eq_ok, writtenTable_eq_ok, pure_eq_ok]
  refine ⟨b, hb, a, ha, u, hu, ?_⟩
  rw [foreignKeyOf, fieldAt_eq ha, fieldAt_eq hb, tableAt_eq hu]

theorem foreignKeys_eq_ok (ht : s.table? id = some t) :
    foreignKeys s t = .ok (definition s id).foreignKeys := by
  rw [foreignKeys, boundColumns_eq hs ht]
  apply mapM_of_ok
  intro p hp
  exact foreignKey_eq_ok hs p.2 (List.fst_mem_of_mem_zipIdx hp)

theorem createTable_eq_ok (ht : s.table? id = some t) :
    createTable s id = .ok (definition s id) := by
  have hfields : t.columns.mapM s.writtenField = .ok (t.columns.map s.fieldAt) := by
    rw [← tableAt_eq ht]
    exact mapM_of_ok fun f hf => writtenField_column hs hf
  have hkey : (s.primaryKey id).mapM s.writtenField = .ok ((s.primaryKey id).map s.fieldAt) := by
    rw [primaryKey_eq ht]
    exact mapM_of_ok fun f hf => writtenField_column hs (List.mem_of_mem_filter hf)
  simp only [createTable, bind_eq_ok, writtenTable_eq_ok, pure_eq_ok]
  refine ⟨t, ht, _, hfields, _, hkey, _, foreignKeys_eq_ok hs ht, ?_⟩
  simp [definition, tableAt_eq ht, primaryKey_eq ht]

/-! ### Scripts -/

/-- A script for tables of the schema defines each of them, referenced ones as early as the order
of creation brings them. -/
theorem script_eq_ok {selection : List TableId} (hselection : ∀ id ∈ selection, id ∈ s.tableIds)
    (database : String) : script s selection database =
      .ok ⟨database, (creationOrder s selection).map (definition s)⟩ := by
  have hknown : selection.forM (fun id => do let _ ← s.writtenTable id) = .ok () := by
    apply forM_eq_ok.2
    intro id hid
    obtain ⟨t, ht⟩ := mem_tableIds.1 (hselection id hid)
    simp only [writtenTable, ht]
    rfl
  have htables : (creationOrder s selection).mapM (createTable s) =
      .ok ((creationOrder s selection).map (definition s)) := by
    apply mapM_of_ok
    intro id hid
    obtain ⟨t, ht⟩ := mem_tableIds.1 (hselection id (mem_creationOrder.1 hid))
    exact createTable_eq_ok hs ht
  simp only [script, bind_eq_ok, pure_eq_ok]
  exact ⟨_, hknown, _, htables, rfl⟩

theorem writeSchema_eq_ok {selection : List TableId}
    (hselection : ∀ id ∈ selection, id ∈ s.tableIds) (database : String) :
    writeSchema s selection (some database) =
      .ok (scriptText ⟨database, (creationOrder s selection).map (definition s)⟩) := by
  rw [writeSchema, script_eq_ok hs hselection]
  rfl

end Reachable
end Schemata.Ddl
