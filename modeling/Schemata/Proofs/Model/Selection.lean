import Schemata.Proofs.Model.Layout
import Mathlib.Data.List.Perm.Subperm

/-!
# Selections of tables

The columns of the selected tables, one table after the other, are the fields that belong to a
selected table, each of them once.
-/
namespace Schemata.Schema
variable {s : Schema} {id : TableId} {f : FieldId} {selection : List TableId}

/-- The table with an id, an empty one if there is none. -/
def tableAt (s : Schema) (id : TableId) : Table := (s.table? id).getD { name := "" }

def fieldAt (s : Schema) (f : FieldId) : Field := (s.field? f).getD { name := "", table := ⟨0⟩ }

theorem tableAt_eq {t : Table} (h : s.table? id = some t) : s.tableAt id = t := by
  simp [tableAt, h]

theorem fieldAt_eq {a : Field} (h : s.field? f = some a) : s.fieldAt f = a := by
  simp [fieldAt, h]

/-- The columns of the selected tables. -/
def selected (s : Schema) (selection : List TableId) : List FieldId :=
  selection.flatMap fun id => (s.tableAt id).columns

theorem Layout.eq_of_tableName (hl : Layout s) {id' : TableId} {t t' : Table}
    (ht : s.table? id = some t) (ht' : s.table? id' = some t') (h : t.name = t'.name) :
    id = id' := by
  have hname : (s.tables.map (·.name))[id.index]? = (s.tables.map (·.name))[id'.index]? := by
    rw [List.getElem?_map, List.getElem?_map, show s.tables[id.index]? = some t from ht,
      show s.tables[id'.index]? = some t' from ht', Option.map_some, Option.map_some, h]
  have hlt : id.index < (s.tables.map (·.name)).length := by
    rw [List.length_map]
    exact lt_of_table? ht
  exact congrArg TableId.mk ((List.getElem?_inj hlt hl.names).1 hname)

theorem Layout.mem_columnsAt (hl : Layout s) :
    f ∈ (s.tableAt id).columns ↔ ∃ a, s.field? f = some a ∧ a.table = id := by
  cases ht : s.table? id with
  | some t => rw [tableAt_eq ht, hl.mem_columns ht]
  | none =>
    have hno : ¬∃ a, s.field? f = some a ∧ a.table = id := by
      rintro ⟨a, ha, rfl⟩
      obtain ⟨t, ht'⟩ := hl.hasTable ha
      cases ht.symm.trans ht'
    simp [tableAt, ht, hno]

theorem Layout.nodup_columnsAt (hl : Layout s) (id : TableId) : (s.tableAt id).columns.Nodup := by
  cases ht : s.table? id with
  | some t =>
    rw [tableAt_eq ht]
    exact hl.nodup_columns ht
  | none => simp [tableAt, ht]

theorem Layout.mem_selected (hl : Layout s) :
    f ∈ s.selected selection ↔ ∃ a, s.field? f = some a ∧ a.table ∈ selection := by
  simp only [selected, List.mem_flatMap, hl.mem_columnsAt]
  constructor
  · rintro ⟨id, hid, a, ha, rfl⟩
    exact ⟨a, ha, hid⟩
  · rintro ⟨a, ha, hid⟩
    exact ⟨a.table, hid, a, ha, rfl⟩

theorem Layout.fieldAt_table_mem (hl : Layout s) (hf : f ∈ s.selected selection) :
    (s.fieldAt f).table ∈ selection := by
  obtain ⟨a, ha, hid⟩ := hl.mem_selected.1 hf
  rwa [fieldAt_eq ha]

theorem Layout.nodup_selected (hl : Layout s) (hs : selection.Nodup) :
    (s.selected selection).Nodup := by
  rw [selected, List.nodup_flatMap]
  constructor
  · exact fun id _ => hl.nodup_columnsAt id
  · apply hs.imp
    intro id id' hne f hf hf'
    obtain ⟨a, ha, rfl⟩ := hl.mem_columnsAt.1 hf
    obtain ⟨b, hb, rfl⟩ := hl.mem_columnsAt.1 hf'
    cases ha.symm.trans hb
    exact hne rfl

/-! ### All tables -/

theorem getElem?_tableIds {t : Table} (ht : s.table? id = some t) :
    s.tableIds[id.index]? = some id := by
  simp [tableIds, List.getElem?_range (lt_of_table? ht)]

theorem mem_tableIds : id ∈ s.tableIds ↔ ∃ t, s.table? id = some t := by
  constructor
  · intro hid
    obtain ⟨i, hi, rfl⟩ := List.mem_map.1 hid
    exact ⟨_, List.getElem?_eq_getElem (List.mem_range.1 hi)⟩
  · exact fun ⟨t, ht⟩ => List.mem_of_getElem? (getElem?_tableIds ht)

theorem nodup_tableIds (s : Schema) : s.tableIds.Nodup :=
  List.nodup_range.map fun _ _ => TableId.mk.inj

theorem length_tableIds (s : Schema) : s.tableIds.length = s.tables.length := by
  simp [tableIds]

theorem Layout.mem_selected_all (hl : Layout s) :
    f ∈ s.selected s.tableIds ↔ ∃ a, s.field? f = some a := by
  rw [hl.mem_selected]
  constructor
  · exact fun ⟨a, ha, _⟩ => ⟨a, ha⟩
  · exact fun ⟨a, ha⟩ => ⟨a, ha, mem_tableIds.2 (hl.hasTable ha)⟩

theorem Layout.length_selected_all (hl : Layout s) :
    (s.selected s.tableIds).length ≤ s.fields.length := by
  have hsub : s.selected s.tableIds ⊆ (List.range s.fields.length).map FieldId.mk := by
    intro f hf
    obtain ⟨a, ha⟩ := hl.mem_selected_all.1 hf
    exact List.mem_map.2 ⟨f.index, List.mem_range.2 (lt_of_field? ha), rfl⟩
  have hle := ((hl.nodup_selected s.nodup_tableIds).subperm hsub).length_le
  simpa using hle

end Schemata.Schema
