import Schemata.Proofs.Model.Layout

/-!
# Schemata without blank names

A schema takes any name that it is given. So it has no blank name as long as no table and no field is
added with one; no other operation touches names.
-/
namespace Schemata.Schema
variable {s s' : Schema} {name : String} {table related : TableId} {native foreign : FieldId}

/-- No table and no field has a blank name. -/
structure Named (s : Schema) : Prop where
  tables : ∀ t ∈ s.tables, t.name ≠ ""
  fields : ∀ f ∈ s.fields, f.name ≠ ""

theorem named_empty : Named {} := ⟨List.forall_mem_nil _, List.forall_mem_nil _⟩

theorem named_iff : s.Named ↔
    (∀ n ∈ s.tables.map (·.name), n ≠ "") ∧ ∀ l ∈ s.fields.map Field.label, l.1 ≠ "" := by
  rw [List.forall_mem_map, List.forall_mem_map]
  exact ⟨fun h => ⟨h.tables, h.fields⟩, fun h => ⟨h.1, h.2⟩⟩

theorem Named.of_same (h : Named s) (hsame : SameLayout s s') : Named s' := by
  rw [named_iff] at h ⊢
  rwa [hsame.names, hsame.labels]

theorem Named.addTable (h : Named s) (hname : name ≠ "") {c : Change TableId}
    (hc : s.addTable name = .ok c) : Named c.schema := by
  obtain ⟨-, rfl⟩ := addTable_eq_ok_iff.1 hc
  exact ⟨List.forall_mem_append.2 ⟨h.tables, List.forall_mem_singleton.2 hname⟩, h.fields⟩

theorem Named.addField (h : Named s) (hname : name ≠ "") {c : Change FieldId}
    (hc : s.addField table name = .ok c) : Named c.schema := by
  obtain ⟨t, -, -, rfl⟩ := addField_eq_ok_iff.1 hc
  refine ⟨?_, List.forall_mem_append.2 ⟨h.fields, List.forall_mem_singleton.2 hname⟩⟩
  rw [← List.forall_mem_map (P := fun n => n ≠ ""), tableNames_withField, List.forall_mem_map]
  exact h.tables

theorem Named.updateField (h : Named s) {settings : List Setting} {c : Change Unit}
    (hc : s.updateField native settings = .ok c) : Named c.schema := by
  obtain ⟨f, -, rfl⟩ := updateField_eq_ok_iff.1 hc
  exact h.of_same (sameLayout_modifyField s native fun a => a.setAll_label settings)

theorem Named.addRelated (h : Named s) {c : Change Unit}
    (hc : s.addRelated table related = .ok c) : Named c.schema := by
  obtain ⟨t, -, -, rfl⟩ := addRelated_eq_ok_iff.1 hc
  split
  · exact h
  · exact h.of_same (sameLayout_modifyTable s table (fun _ => rfl) fun _ => .refl _)

theorem Named.bind (h : Named s) {c : Change Unit} (hc : s.bind native foreign = .ok c) :
    Named c.schema := by
  obtain ⟨f, g, t, -, -, -, -, rfl⟩ := bind_eq_ok_iff.1 hc
  exact h.of_same (sameLayout_rebind s f.table native (·.bindings.insert native foreign) _)

end Schemata.Schema
