import Schemata.Proofs.Ddl.Order

/-!
# Scripts that define what they reference

A script makes a new database, in which there are no tables but those that it creates. References
are written whether or not the table that they lead to is selected. So a script defines every table
that it references if the selection is closed under references, and only then.
-/
namespace Schemata.Ddl
open Schema
variable {s : Schema} {selection : List TableId}

/-- Every table that a script references is one that it creates. -/
def Script.Closed (script : Script) : Prop :=
  ∀ t ∈ script.tables, ∀ k ∈ t.foreignKeys, ∃ u ∈ script.tables, u.name = k.table

instance (script : Script) : Decidable script.Closed :=
  inferInstanceAs (Decidable (∀ t ∈ script.tables, ∀ k ∈ t.foreignKeys,
    ∃ u ∈ script.tables, u.name = k.table))

/-- No field of a selected table references a field of a table that is not selected. -/
def ClosedSelection (s : Schema) (selection : List TableId) : Prop :=
  ∀ f a g b, s.field? f = some a → a.table ∈ selection → a.foreign = some g →
    s.field? g = some b → b.table ∈ selection

section Reachable
variable (hs : Reachable s)
include hs

/-- A column that holds a reference is written with it. -/
theorem exists_foreignKey {f g : FieldId} {a b : Field} {u : Table} (ha : s.field? f = some a)
    (hag : a.foreign = some g) (hb : s.field? g = some b) (hu : s.table? b.table = some u) :
    ∃ k ∈ (definition s a.table).foreignKeys, k.table = u.name := by
  have hmem : (f, g) ∈ references s a.table := by
    rw [mem_references, fieldAt_eq ha]
    exact ⟨(layout_invariant.holds hs).mem_columnsAt.2 ⟨a, ha, rfl⟩, hag⟩
  rw [← List.zipIdx_map_fst 1 (references s a.table)] at hmem
  obtain ⟨⟨p, number⟩, hp, rfl⟩ := List.mem_map.1 hmem
  refine ⟨_, List.mem_map_of_mem hp, ?_⟩
  simp only [foreignKeyOf, fieldAt_eq hb, tableAt_eq hu]

theorem closed_iff (hselection : ∀ id ∈ selection, id ∈ s.tableIds) (database : String) :
    (Script.mk database ((creationOrder s selection).map (definition s))).Closed ↔
      ClosedSelection s selection := by
  have hl := layout_invariant.holds hs
  constructor
  · intro h f a g b ha hat hag hb
    obtain ⟨u, hu⟩ := hl.hasTable hb
    obtain ⟨k, hk, hname⟩ := exists_foreignKey hs ha hag hb hu
    obtain ⟨d, hd, hdname⟩ := h _ (List.mem_map_of_mem (mem_creationOrder.2 hat)) k hk
    obtain ⟨id, hid, rfl⟩ := List.mem_map.1 hd
    rw [mem_creationOrder] at hid
    obtain ⟨v, hv⟩ := mem_tableIds.1 (hselection id hid)
    have hvname : v.name = u.name := by
      rw [← tableAt_eq hv]
      exact hdname.trans hname
    exact hl.eq_of_tableName hv hu hvname ▸ hid
  · intro h t ht k hk
    obtain ⟨id, hid, rfl⟩ := List.mem_map.1 ht
    obtain ⟨f, a, g, b, u, ha, rfl, hag, hb, hu, hname⟩ := exists_reference_of_mem hs hk
    have hselected := h f a g b ha (mem_creationOrder.1 hid) hag hb
    refine ⟨_, List.mem_map_of_mem (mem_creationOrder.2 hselected), ?_⟩
    rw [definition, tableAt_eq hu, hname]

end Reachable

/-- Just the selections that are closed under references give closed scripts. -/
theorem script_closed_iff (ops : List Operation) (selection : List TableId) (database : String)
    (hselection : ∀ id ∈ selection, id ∈ (ofHistory ops).tableIds) :
    ∃ script, Ddl.script (ofHistory ops) selection database = .ok script ∧
      writeSchema (ofHistory ops) selection (some database) = .ok (scriptText script) ∧
      (script.Closed ↔ ClosedSelection (ofHistory ops) selection) := by
  have hs : Reachable (ofHistory ops) := ⟨ops, rfl⟩
  exact ⟨_, script_eq_ok hs hselection database, writeSchema_eq_ok hs hselection database,
    closed_iff hs hselection database⟩

/-- A book has an author. -/
def library : List Operation :=
  [.addTable "Author", .addTable "Book", .addField ⟨0⟩ "id", .addField ⟨1⟩ "author",
    .addRelated ⟨1⟩ ⟨0⟩, .bind ⟨1⟩ ⟨0⟩]

theorem library_closed_iff : (∀ id ∈ [(⟨1⟩ : TableId), ⟨0⟩], id ∈ (ofHistory library).tableIds) ∧
    ∃ script, Ddl.script (ofHistory library) [⟨1⟩, ⟨0⟩] "library" = .ok script ∧
      writeSchema (ofHistory library) [⟨1⟩, ⟨0⟩] (some "library") = .ok (scriptText script) ∧
      (script.Closed ↔ ClosedSelection (ofHistory library) [⟨1⟩, ⟨0⟩]) :=
  ⟨by decide, script_closed_iff library [⟨1⟩, ⟨0⟩] "library" (by decide)⟩

/-- What is written if only the books are selected. -/
def bookAlone : Script where
  database := "library"
  tables := [{
    name := "Book"
    columns := [⟨"author", .varchar, 1, false, none, false⟩]
    primaryKey := []
    foreignKeys := [⟨1, "author", "Author", "id"⟩] }]

theorem bookAlone_not_closed : (∀ id ∈ [(⟨1⟩ : TableId)], id ∈ (ofHistory library).tableIds) ∧
    Ddl.script (ofHistory library) [⟨1⟩] "library" = .ok bookAlone ∧
    writeSchema (ofHistory library) [⟨1⟩] (some "library") = .ok
      ("CREATE DATABASE library;\r\nUSE library;\r\nCREATE TABLE Book (\r\n" ++
        "\tauthor VARCHAR(1),\r\n" ++
        "\tCONSTRAINT Book_FK1 FOREIGN KEY(author) REFERENCES Author(id)\r\n);\r\n\r\n") ∧
    ¬bookAlone.Closed := by
  have hknown : ∀ id ∈ [(⟨1⟩ : TableId)], id ∈ (ofHistory library).tableIds := by decide
  have hscript : Ddl.script (ofHistory library) [⟨1⟩] "library" = .ok bookAlone := by
    rw [script_eq_ok ⟨library, rfl⟩ hknown, creationOrder_eq_self (List.pairwise_singleton _ _)]
    exact congrArg Except.ok (by decide +kernel)
  refine ⟨hknown, hscript, ?_, by decide⟩
  rw [writeSchema, hscript]
  exact congrArg Except.ok (by decide +kernel)

end Schemata.Ddl
