import Schemata.Proofs.Ddl.Definition
import Schemata.Proofs.Model.Counting
import Schemata.Proofs.SaveFile.Copies

/-!
# Scripts by way of a save file

The script of a schema is that of its copies, but for the columns that count. What a save file is
read into is a copy, and so is the schema in which no column counts.
-/
namespace Schemata.Ddl
open Schema SaveFile
variable {s s' : Schema} {φ : FieldId → FieldId} {table : TableId}

theorem copies_withoutCounting (s : Schema) : Copies id s s.withoutCounting where
  tableCount := rfl
  tables {_ t} ht := ⟨t, ht, rfl, (List.map_id t.columns).symm, rfl⟩
  fields {f a} ha := by simp [field?_withoutCounting, ha, Field.set]
  inj _ he := he

/-- The definition with no column that counts. -/
def CreateTable.withoutCounting (t : CreateTable) : CreateTable :=
  { t with columns := t.columns.map fun c => { c with autoIncrement := false } }

section Copies
variable (hs : Reachable s) (h : Copies φ s s')
include hs h

theorem fieldAt_copy {f : FieldId} (hf : f ∈ (s.tableAt table).columns) :
    s'.fieldAt (φ f) =
      { s.fieldAt f with autoIncrement := false, foreign := (s.fieldAt f).foreign.map φ } := by
  obtain ⟨a, ha, -⟩ := (layout_invariant.holds hs).mem_columnsAt.1 hf
  rw [h.fieldAt_eq ha, Schema.fieldAt_eq ha]

/-! ### Definitions -/

theorem references_copy (ht : table ∈ s.tableIds) :
    references s' table = (references s table).map (Prod.map φ φ) := by
  rw [references, references, (h.tableAt_eq ht).2.1, List.filterMap_map, List.map_filterMap]
  apply List.filterMap_congr
  intro f hf
  rw [Function.comp_apply, fieldAt_copy hs h hf]
  cases (s.fieldAt f).foreign <;> rfl

theorem foreignKeyOf_copy (number : Nat) {p : FieldId × FieldId} (hp : p ∈ references s table) :
    foreignKeyOf s' number (φ p.1) (φ p.2) = foreignKeyOf s number p.1 p.2 := by
  obtain ⟨a, b, u, ha, -, -, hb, hu⟩ := exists_of_mem_references hs hp
  simp only [foreignKeyOf, h.fieldAt_eq ha, h.fieldAt_eq hb, Schema.fieldAt_eq ha,
    Schema.fieldAt_eq hb, (h.tableAt_eq (mem_tableIds.2 ⟨u, hu⟩)).1]

theorem foreignKeys_copy (ht : table ∈ s.tableIds) :
    (definition s' table).foreignKeys = (definition s table).foreignKeys := by
  rw [definition, definition, references_copy hs h ht, List.zipIdx_map, List.map_map]
  apply List.map_congr_left
  intro p hp
  exact foreignKeyOf_copy hs h p.2 (List.fst_mem_of_mem_zipIdx hp)

theorem definition_copy (ht : table ∈ s.tableIds) :
    definition s' table = (definition s table).withoutCounting := by
  obtain ⟨hname, hcolumns, -⟩ := h.tableAt_eq ht
  have hfields : (definition s' table).columns =
      (definition s table).columns.map fun c => { c with autoIncrement := false } := by
    simp only [definition, hcolumns, List.map_map]
    apply List.map_congr_left
    intro f hf
    rw [Function.comp_apply, fieldAt_copy hs h hf]
    rfl
  have hkey : (definition s' table).primaryKey = (definition s table).primaryKey := by
    simp only [definition, hcolumns, List.filter_map, List.map_map]
    have hmarked : (s.tableAt table).columns.filter ((fun f => (s'.fieldAt f).primaryKey) ∘ φ) =
        (s.tableAt table).columns.filter fun f => (s.fieldAt f).primaryKey := by
      apply List.filter_congr
      intro f hf
      rw [Function.comp_apply, fieldAt_copy hs h hf]
    rw [hmarked]
    apply List.map_congr_left
    intro f hf
    rw [Function.comp_apply, fieldAt_copy hs h (List.mem_of_mem_filter hf)]
  have htable : (definition s' table).name = (definition s table).name := hname
  rw [CreateTable.withoutCounting, ← htable, ← hfields, ← hkey, ← foreignKeys_copy hs h ht]

/-! ### Scripts -/

theorem foreignKeyCount_copy (hs' : Reachable s') {t t' : Table} (ht : s.table? table = some t)
    (ht' : s'.table? table = some t') : t'.foreignKeyCount = t.foreignKeyCount := by
  have hl := layout_invariant.holds hs
  obtain ⟨u, hu, -, hcolumns, -⟩ := h.tables ht
  cases ht'.symm.trans hu
  rw [foreignKeyCount_eq_countP (layout_invariant.holds hs') (bindings_invariant.holds hs') ht',
    foreignKeyCount_eq_countP hl (bindings_invariant.holds hs) ht, hcolumns, List.countP_map]
  apply List.countP_congr
  intro f hf
  obtain ⟨a, ha, -⟩ := (hl.mem_columns ht f).1 hf
  simp [ha, h.fields ha]

theorem creationOrder_copy (hs' : Reachable s') :
    creationOrder s' s'.tableIds = creationOrder s s.tableIds := by
  have hcount (table : TableId) : (s'.table? table).map (·.foreignKeyCount) =
      (s.table? table).map (·.foreignKeyCount) := by
    cases ht : s.table? table with
    | some t =>
      obtain ⟨t', ht', -⟩ := h.tables ht
      rw [ht', Option.map_some, Option.map_some, foreignKeyCount_copy hs h hs' ht ht']
    | none =>
      have hnone : s'.table? table = none := by
        rw [table?, List.getElem?_eq_none_iff, h.tableCount]
        exact List.getElem?_eq_none_iff.1 ht
      rw [hnone]
  simp only [creationOrder, hcount, h.tableIds_eq]

theorem script_copy (hs' : Reachable s') (database : String) : script s' s'.tableIds database =
    .ok ⟨database, (creationOrder s s.tableIds).map fun table =>
      (definition s table).withoutCounting⟩ := by
  have hdefinitions : (creationOrder s s.tableIds).map (definition s') =
      (creationOrder s s.tableIds).map fun table => (definition s table).withoutCounting := by
    apply List.map_congr_left
    intro table ht
    exact definition_copy hs h (mem_creationOrder.1 ht)
  rw [script_eq_ok hs' (fun _ ht => ht), creationOrder_copy hs h hs', hdefinitions]

end Copies

/-- Going through a save file changes nothing in the script but the counting columns. -/
theorem writeSchema_eq_of_saved (ops : List Operation)
    (hsize : (ofHistory ops).tables.length + (ofHistory ops).fields.length < 2 ^ 32)
    {text : String}
    (h : (SaveFile.writeSchema (ofHistory ops) (ofHistory ops).tableIds).outcome = .ok text)
    (database : String) : ∃ s' sql, SaveFile.readSchema text = .ok s' ∧
      Ddl.writeSchema s' s'.tableIds (some database) = .ok sql ∧
      Ddl.writeSchema (ofHistory ops).withoutCounting (ofHistory ops).tableIds (some database) =
        .ok sql := by
  have hs : Reachable (ofHistory ops) := ⟨ops, rfl⟩
  generalize ofHistory ops = s at hsize h hs ⊢
  obtain ⟨s', hread, hcopy⟩ := exists_copy (layout_invariant.holds hs)
    (relations_invariant.holds hs) (references_invariant.holds hs) hsize h
  have hs' := reachable_readSchema hread
  have hscript := script_copy hs hcopy hs' database
  have hwithout := script_copy hs (copies_withoutCounting s) (reachable_withoutCounting hs) database
  exact ⟨s', _, hread, map_eq_ok.2 ⟨_, hscript, rfl⟩, map_eq_ok.2 ⟨_, hwithout, rfl⟩⟩

/-- Loans count and reference books, whose field is older than theirs. -/
def lending : List Operation :=
  [.addTable "Loan", .addTable "Book", .addField ⟨1⟩ "title", .addField ⟨0⟩ "book",
    .addField ⟨0⟩ "no", .updateField ⟨2⟩ [.autoIncrement true, .primaryKey true],
    .addRelated ⟨0⟩ ⟨1⟩, .bind ⟨1⟩ ⟨0⟩, .moveUp ⟨2⟩]

def lendingText : String :=
  String.ofList (unlines (["EdgeConvert Save File", "#Tables#",
    "Table: 1", "\x7b", "TableName: Loan", "NativeFields: 2|3", "RelatedTables: 4",
    "RelatedFields: 0|5", "\x7d",
    "Table: 4", "\x7b", "TableName: Book", "NativeFields: 5", "RelatedTables: ",
    "RelatedFields: 0", "\x7d",
    "#Fields#",
    "2|no|1|null|null|3|1|true|false|", "3|book|1|5|4|0|1|false|false|",
    "5|title|4|null|null|0|1|false|false|"].map String.toList))

theorem lending_script :
    (ofHistory lending).tables.length + (ofHistory lending).fields.length < 2 ^ 32 ∧
      (SaveFile.writeSchema (ofHistory lending) (ofHistory lending).tableIds).outcome =
        .ok lendingText ∧
      ∃ s' sql, SaveFile.readSchema lendingText = .ok s' ∧
        Ddl.writeSchema s' s'.tableIds (some "library") = .ok sql ∧
        Ddl.writeSchema (ofHistory lending).withoutCounting (ofHistory lending).tableIds
          (some "library") = .ok sql := by
  have hsize : (ofHistory lending).tables.length + (ofHistory lending).fields.length < 2 ^ 32 := by
    decide
  have hwritten : (SaveFile.writeSchema (ofHistory lending) (ofHistory lending).tableIds).outcome =
      .ok lendingText := by
    set_option maxRecDepth 10000 in rfl
  exact ⟨hsize, hwritten, writeSchema_eq_of_saved lending hsize hwritten "library"⟩

end Schemata.Ddl
