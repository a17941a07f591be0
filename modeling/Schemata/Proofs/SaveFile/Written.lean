import Schemata.Proofs.Model.Bindings
import Schemata.Proofs.SaveFile.Numbers
import Schemata.Proofs.SaveFile.Rows

/-!
# The file of a selection

A selection of distinct tables that is accepted has one file. Its blocks and rows are those of the
selected tables and their columns in order, with all that is not selected left out.
-/
namespace Schemata.SaveFile
open Schema Text
variable {s : Schema} {selection : List TableId} {n : Numbers}

/-- The number of a table of the selection. -/
def tableNumber (s : Schema) (selection : List TableId) (id : TableId) : Nat :=
  numberAt (cells s selection) (.table id)

def fieldNumber (s : Schema) (selection : List TableId) (f : FieldId) : Nat :=
  numberAt (cells s selection) (.field f)

/-- The field that a field references, unless its table is left out. -/
def keptReference (s : Schema) (selection : List TableId) (f : FieldId) : Option FieldId :=
  (s.fieldAt f).foreign.filter fun g => g ∈ s.selected selection

def blockOf (s : Schema) (selection : List TableId) (id : TableId) : Block where
  id := tableNumber s selection id
  name := (s.tableAt id).name
  native := (s.tableAt id).columns.map (fieldNumber s selection)
  related := ((s.tableAt id).related.filter (· ∈ selection)).map (tableNumber s selection)
  relatedFields := (s.tableAt id).columns.map fun f =>
    ((keptReference s selection f).map (fieldNumber s selection)).getD 0

def rowOf (s : Schema) (selection : List TableId) (f : FieldId) : Row where
  id := fieldNumber s selection f
  name := (s.fieldAt f).name
  table := tableNumber s selection (s.fieldAt f).table
  foreign := (keptReference s selection f).map fun g =>
    ⟨fieldNumber s selection g, tableNumber s selection (s.fieldAt g).table⟩
  typeCode := (s.fieldAt f).dataType.code
  length := (s.fieldAt f).length
  primaryKey := (s.fieldAt f).primaryKey
  notNull := !(s.fieldAt f).allowNull
  default := (s.fieldAt f).default

def written (s : Schema) (selection : List TableId) : SaveFile where
  blocks := selection.map (blockOf s selection)
  rows := (s.selected selection).map (rowOf s selection)

/-! ### Numbers handed out -/

theorem Numbers.table_eq_ok {id : TableId} {m : Nat} :
    n.table id = .ok m ↔ n.table? id = some m := by
  unfold Numbers.table
  cases n.table? id <;> simp

theorem Numbers.field_eq_ok {f : FieldId} {m : Nat} :
    n.field f = .ok m ↔ n.field? f = some m := by
  unfold Numbers.field
  cases n.field? f <;> simp

theorem number?_table {id : TableId} : number? (cells s selection) (.table id) =
    if id ∈ selection then some (tableNumber s selection id) else none := by
  simp only [number?, mem_cells_table, tableNumber]

theorem number?_field {f : FieldId} : number? (cells s selection) (.field f) =
    if f ∈ s.selected selection then some (fieldNumber s selection f) else none := by
  simp only [number?, mem_cells_field, fieldNumber]

theorem Numbered.table_eq (hn : Numbered (cells s selection) n) {id : TableId} {m : Nat}
    (h : n.table id = .ok m) : m = tableNumber s selection id := by
  rw [Numbers.table_eq_ok, hn.tables, number?_table] at h
  by_cases hid : id ∈ selection
  · rw [if_pos hid] at h
    exact (Option.some.inj h).symm
  · rw [if_neg hid] at h
    cases h

theorem Numbered.field_eq (hn : Numbered (cells s selection) n) {f : FieldId} {m : Nat}
    (h : n.field f = .ok m) : m = fieldNumber s selection f := by
  rw [Numbers.field_eq_ok, hn.fields, number?_field] at h
  by_cases hf : f ∈ s.selected selection
  · rw [if_pos hf] at h
    exact (Option.some.inj h).symm
  · rw [if_neg hf] at h
    cases h

theorem Numbered.foreign?_eq (hn : Numbered (cells s selection) n) (f : FieldId) :
    n.foreign? (s.fieldAt f) = (keptReference s selection f).map (fieldNumber s selection) := by
  unfold Numbers.foreign? keptReference
  cases hf : (s.fieldAt f).foreign with
  | none => rfl
  | some g =>
    rw [Option.bind_some, hn.fields, number?_field]
    by_cases hg : g ∈ s.selected selection <;> simp [Option.filter, hg]

theorem Numbered.filterMap_table (hn : Numbered (cells s selection) n) (ids : List TableId) :
    ids.filterMap n.table? = (ids.filter (· ∈ selection)).map (tableNumber s selection) := by
  induction ids with
  | nil => rfl
  | cons id ids ih =>
    rw [List.filterMap_cons, hn.tables, number?_table, ih]
    by_cases hid : id ∈ selection <;> simp [hid]

/-! ### Blocks and rows -/

theorem Numbered.tableBlock_eq (hn : Numbered (cells s selection) n) {id : TableId} {b : Block}
    (h : tableBlock s n id = .ok b) : b = blockOf s selection id := by
  simp only [tableBlock, bind_eq_ok, writtenTable_eq_ok, pure_eq_ok] at h
  obtain ⟨t, ht, as, has, m, hm, native, hnative, rfl⟩ := h
  have hfields : as = t.columns.map s.fieldAt :=
    mapM_eq_map has fun f _ a ha => (fieldAt_eq (writtenField_eq_ok.1 ha)).symm
  have hnumbers : native = t.columns.map (fieldNumber s selection) :=
    mapM_eq_map hnative fun f _ m hm => hn.field_eq hm
  simp only [blockOf, tableAt_eq ht, hfields, hnumbers, hn.table_eq hm, hn.filterMap_table,
    List.map_map, Function.comp_def, hn.foreign?_eq]

theorem Numbered.reference_eq (hn : Numbered (cells s selection) n) {f : FieldId}
    {ref : Option Reference} (h : reference s n (s.fieldAt f) = .ok ref) :
    ref = (rowOf s selection f).foreign := by
  unfold reference at h
  unfold rowOf keptReference
  cases hf : (s.fieldAt f).foreign with
  | none =>
    rw [hf] at h
    exact pure_eq_ok.1 h
  | some g =>
    simp only [hf, hn.fields, number?_field] at h
    by_cases hg : g ∈ s.selected selection
    · simp only [if_pos hg, bind_eq_ok, writtenField_eq_ok, pure_eq_ok] at h
      obtain ⟨b, hb, m, hm, rfl⟩ := h
      simp [Option.filter, hg, hn.table_eq hm, fieldAt_eq hb]
    · simp only [if_neg hg] at h
      rw [pure_eq_ok.1 h]
      simp [Option.filter, hg]

theorem Numbered.fieldRow_eq (hn : Numbered (cells s selection) n) {f : FieldId} {r : Row}
    (h : fieldRow s n f = .ok r) : r = rowOf s selection f := by
  simp only [fieldRow, bind_eq_ok, writtenField_eq_ok, pure_eq_ok] at h
  obtain ⟨a, ha, m, hm, t, ht, ref, href, rfl⟩ := h
  rw [← fieldAt_eq ha] at ht href ⊢
  rw [hn.field_eq hm, hn.table_eq ht, hn.reference_eq href]
  rfl

theorem Numbered.tableRows_eq (hn : Numbered (cells s selection) n) {id : TableId}
    {rs : List Row} (h : tableRows s n id = .ok rs) :
    rs = (s.tableAt id).columns.map (rowOf s selection) := by
  simp only [tableRows, bind_eq_ok, writtenTable_eq_ok] at h
  obtain ⟨t, ht, hrs⟩ := h
  rw [tableAt_eq ht]
  exact mapM_eq_map hrs fun f _ r hr => hn.fieldRow_eq hr

theorem ofSchema_eq_ok {file : SaveFile} : (ofSchema s selection).outcome = .ok file ↔
    ∃ n, Numbers.ofSelection s selection = .ok n ∧ numbered s n selection = .ok file := by
  unfold ofSchema
  cases Numbers.ofSelection s selection <;> simp

/-- An accepted selection has one file, and all of it has been checked. -/
theorem ofSchema_written (hl : Layout s) (hs : selection.Nodup) {file : SaveFile}
    (h : (ofSchema s selection).outcome = .ok file) :
    file = written s selection ∧ Representable s selection := by
  obtain ⟨n, hn, h⟩ := ofSchema_eq_ok.1 h
  obtain ⟨hnumbered, hchecks⟩ := ofSelection_numbered hl hs hn
  simp only [numbered, bind_eq_ok, pure_eq_ok] at h
  obtain ⟨blocks, hblocks, rows, hrows, rfl⟩ := h
  have hb := mapM_eq_map hblocks fun id _ b hb => hnumbered.tableBlock_eq hb
  have hr := mapM_eq_map hrows fun id _ rs hrs => hnumbered.tableRows_eq hrs
  refine ⟨?_, hchecks⟩
  rw [written, selected, List.map_flatMap, hb, hr]
  rfl

end Schemata.SaveFile
