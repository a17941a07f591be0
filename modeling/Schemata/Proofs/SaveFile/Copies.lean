import Schemata.Proofs.SaveFile.Representable
import Schemata.Proofs.SaveFile.RoundTrip

/-!
# Copies of a schema

With all tables selected in order, what is read back is a copy of the schema: only the ids of fields
are others, and no column counts. A copy has the same save file as the original.
-/
namespace Schemata.SaveFile
open Schema
variable {s s' : Schema} {φ : FieldId → FieldId} {id : TableId} {f : FieldId}

/-- `s'` says of the same tables what `s` says. A field `f` has become `φ f`. -/
structure Copies (φ : FieldId → FieldId) (s s' : Schema) : Prop where
  tableCount : s'.tables.length = s.tables.length
  tables : ∀ {id t}, s.table? id = some t → ∃ t', s'.table? id = some t' ∧ t'.name = t.name ∧
    t'.columns = t.columns.map φ ∧ t'.related = t.related
  fields : ∀ {f a}, s.field? f = some a →
    s'.field? (φ f) = some { a with autoIncrement := false, foreign := a.foreign.map φ }
  inj : ∀ {f g a}, s.field? f = some a → φ f = φ g → f = g

/-! ### Restored schemata -/

theorem tableImage_tableIds (hid : id ∈ s.tableIds) : tableImage s.tableIds id = id := by
  obtain ⟨t, ht⟩ := mem_tableIds.1 hid
  exact congrArg TableId.mk (idxOf_of_getElem? s.nodup_tableIds (getElem?_tableIds ht))

theorem foreignImage_tableIds (hl : Layout s) (href : References s) {a : Field}
    (ha : s.field? f = some a) :
    foreignImage s s.tableIds a = a.foreign.map (fieldImage s s.tableIds) := by
  unfold foreignImage
  cases hg : a.foreign with
  | none => rfl
  | some g =>
    obtain ⟨_, ⟨b, hb, rfl⟩, -⟩ := href f a ha g hg
    simp [hb, mem_tableIds.2 (hl.hasTable hb)]

theorem Restores.copies (hl : Layout s) (hrel : Relations s) (href : References s)
    (h : Restores s s.tableIds s') : Copies (fieldImage s s.tableIds) s s' where
  tableCount := h.tableCount.trans s.length_tableIds
  tables {id t} ht := by
    obtain ⟨u, t', hu, ht', hname, hcolumns, hrelated, -⟩ :=
      h.tables id.index id (getElem?_tableIds ht)
    cases ht.symm.trans hu
    refine ⟨t', ht', hname, hcolumns, ?_⟩
    have hmem : ∀ other ∈ t.related, other ∈ s.tableIds := fun other hother =>
      mem_tableIds.2 ⟨_, List.getElem?_eq_getElem ((hrel id t ht).2 other hother)⟩
    have hall : t.related.filter (· ∈ s.tableIds) = t.related :=
      List.filter_eq_self.2 fun other hother => decide_eq_true (hmem other hother)
    have hsame : t.related.map (tableImage s.tableIds) = t.related.map (·) :=
      List.map_congr_left fun other hother => tableImage_tableIds (hmem other hother)
    rw [hrelated, hall, hsame, List.map_id']
  fields {f a} ha := by
    have htable := mem_tableIds.2 (hl.hasTable ha)
    rw [h.fields f a ha htable, restoredField, tableImage_tableIds htable,
      foreignImage_tableIds hl href ha]
  inj ha he :=
    (List.idxOf_inj (hl.mem_selected_all.2 ⟨_, ha⟩)).1 (congrArg FieldId.index he)

/-- The file of all tables reads back as a copy. -/
theorem exists_copy (hl : Layout s) (hrel : Relations s) (href : References s)
    (hsize : s.tables.length + s.fields.length < 2 ^ 32) {text : String}
    (h : (writeSchema s s.tableIds).outcome = .ok text) :
    ∃ s', readSchema text = .ok s' ∧ Copies (fieldImage s s.tableIds) s s' := by
  have hfit : s.tableIds.length + (s.selected s.tableIds).length < 2 ^ 32 := by
    have hle := hl.length_selected_all
    rw [s.length_tableIds]
    omega
  obtain ⟨s', hs', hrestores⟩ := exists_restored hl hrel href s.nodup_tableIds hfit h
  exact ⟨s', hs', hrestores.copies hl hrel href⟩

/-! ### Numbers of copies -/

namespace Copies

theorem tableIds_eq (h : Copies φ s s') : s'.tableIds = s.tableIds := by
  rw [Schema.tableIds, h.tableCount, Schema.tableIds]

theorem tableAt_eq (h : Copies φ s s') (hid : id ∈ s.tableIds) :
    (s'.tableAt id).name = (s.tableAt id).name ∧
      (s'.tableAt id).columns = (s.tableAt id).columns.map φ ∧
      (s'.tableAt id).related = (s.tableAt id).related := by
  obtain ⟨t, ht⟩ := mem_tableIds.1 hid
  obtain ⟨t', ht', he⟩ := h.tables ht
  rwa [Schema.tableAt_eq ht, Schema.tableAt_eq ht']

theorem fieldAt_eq (h : Copies φ s s') {a : Field} (ha : s.field? f = some a) :
    s'.fieldAt (φ f) = { a with autoIncrement := false, foreign := a.foreign.map φ } :=
  Schema.fieldAt_eq (h.fields ha)

theorem selected_eq (h : Copies φ s s') :
    s'.selected s.tableIds = (s.selected s.tableIds).map φ := by
  rw [selected, selected, List.map_flatMap]
  exact List.flatMap_congr fun id hid => (h.tableAt_eq hid).2.1

theorem mem_selected_iff (h : Copies φ s s') (hl : Layout s) :
    φ f ∈ s'.selected s.tableIds ↔ f ∈ s.selected s.tableIds := by
  rw [h.selected_eq, List.mem_map]
  constructor
  · rintro ⟨g, hg, he⟩
    obtain ⟨a, ha⟩ := hl.mem_selected_all.1 hg
    exact h.inj ha he ▸ hg
  · exact fun hf => ⟨f, hf, rfl⟩

end Copies

/-- What a numbered cell becomes in a copy. -/
def Cell.image (φ : FieldId → FieldId) : Cell → Cell
  | .table id => .table id
  | .field f => .field (φ f)

namespace Copies

theorem cells_eq (h : Copies φ s s') :
    cells s' s.tableIds = (cells s s.tableIds).map (Cell.image φ) := by
  rw [cells, cells, List.map_flatMap]
  apply List.flatMap_congr
  intro id hid
  rw [(h.tableAt_eq hid).2.1, List.map_cons, List.map_map, List.map_map]
  rfl

theorem tableNumber_eq (h : Copies φ s s') (id : TableId) :
    tableNumber s' s.tableIds id = tableNumber s s.tableIds id := by
  have hinj : ∀ c ∈ cells s s.tableIds, c.image φ = Cell.image φ (.table id) → c = .table id := by
    intro c _ he
    cases c with
    | table id' => exact he
    | field f => cases he
  rw [tableNumber, numberAt, h.cells_eq]
  exact congrArg (· + 1) (idxOf_map_of_inj hinj)

theorem fieldNumber_eq (h : Copies φ s s') (hl : Layout s) (f : FieldId) :
    fieldNumber s' s.tableIds (φ f) = fieldNumber s s.tableIds f := by
  have hinj : ∀ c ∈ cells s s.tableIds, c.image φ = Cell.image φ (.field f) → c = .field f := by
    intro c hc he
    cases c with
    | table id => cases he
    | field g =>
      obtain ⟨a, ha⟩ := hl.mem_selected_all.1 (mem_cells_field.1 hc)
      exact congrArg Cell.field (h.inj ha (Cell.field.inj he))
  rw [fieldNumber, numberAt, h.cells_eq]
  exact congrArg (· + 1) (idxOf_map_of_inj hinj)

/-! ### Files of copies -/

theorem keptReference_eq (h : Copies φ s s') (hl : Layout s) {a : Field}
    (ha : s.field? f = some a) :
    keptReference s' s.tableIds (φ f) = (keptReference s s.tableIds f).map φ := by
  rw [keptReference, keptReference, h.fieldAt_eq ha, Schema.fieldAt_eq ha]
  cases a.foreign with
  | none => rfl
  | some g =>
    by_cases hg : g ∈ s.selected s.tableIds <;> simp [Option.filter, h.mem_selected_iff hl, hg]

theorem blockOf_eq (h : Copies φ s s') (hl : Layout s) (hid : id ∈ s.tableIds) :
    blockOf s' s.tableIds id = blockOf s s.tableIds id := by
  obtain ⟨hname, hcolumns, hrelated⟩ := h.tableAt_eq hid
  have htable : tableNumber s' s.tableIds = tableNumber s s.tableIds := by
    funext id
    exact h.tableNumber_eq id
  have hfields : ∀ f ∈ (s.tableAt id).columns, ∃ a, s.field? f = some a := by
    intro f hf
    obtain ⟨a, ha, -⟩ := hl.mem_columnsAt.1 hf
    exact ⟨a, ha⟩
  rw [blockOf, blockOf, hname, hcolumns, hrelated, htable, List.map_map, List.map_map]
  congr 1
  · exact List.map_congr_left fun f _ => h.fieldNumber_eq hl f
  · apply List.map_congr_left
    intro f hf
    obtain ⟨a, ha⟩ := hfields f hf
    rw [Function.comp_apply, h.keptReference_eq hl ha, Option.map_map]
    congr 2
    funext g
    exact h.fieldNumber_eq hl g

theorem reference_eq (h : Copies φ s s') (hl : Layout s) {a : Field} (ha : s.field? f = some a) :
    ((keptReference s' s.tableIds (φ f)).map fun g => Reference.mk (fieldNumber s' s.tableIds g)
      (tableNumber s' s.tableIds (s'.fieldAt g).table)) =
    (keptReference s s.tableIds f).map fun g => Reference.mk (fieldNumber s s.tableIds g)
      (tableNumber s s.tableIds (s.fieldAt g).table) := by
  rw [h.keptReference_eq hl ha, Option.map_map]
  cases hg : keptReference s s.tableIds f with
  | none => rfl
  | some g =>
    obtain ⟨b, hb⟩ := hl.mem_selected_all.1 (mem_selected_of_kept hg)
    simp [h.fieldNumber_eq hl, h.tableNumber_eq, h.fieldAt_eq hb, Schema.fieldAt_eq hb]

theorem rowOf_eq (h : Copies φ s s') (hl : Layout s) (hf : f ∈ s.selected s.tableIds) :
    rowOf s' s.tableIds (φ f) = rowOf s s.tableIds f := by
  obtain ⟨a, ha⟩ := hl.mem_selected_all.1 hf
  rw [rowOf, rowOf, h.reference_eq hl ha, h.fieldNumber_eq hl, h.tableNumber_eq, h.fieldAt_eq ha,
    Schema.fieldAt_eq ha]

/-- A copy has the very file of the original. -/
theorem written_eq (h : Copies φ s s') (hl : Layout s) :
    written s' s'.tableIds = written s s.tableIds := by
  have hblocks : s.tableIds.map (blockOf s' s.tableIds) = s.tableIds.map (blockOf s s.tableIds) :=
    List.map_congr_left fun id hid => h.blockOf_eq hl hid
  have hrows : (s.selected s.tableIds).map (rowOf s' s.tableIds ∘ φ) =
      (s.selected s.tableIds).map (rowOf s s.tableIds) :=
    List.map_congr_left fun f hf => h.rowOf_eq hl hf
  rw [h.tableIds_eq, written, written, h.selected_eq, List.map_map, hblocks, hrows]

theorem representable (h : Copies φ s s') (hr : Representable s s.tableIds) :
    Representable s' s'.tableIds where
  tables id hid := by
    rw [h.tableIds_eq] at hid
    obtain ⟨t, ht, hcheck⟩ := hr.tables id hid
    obtain ⟨t', ht', hname, -⟩ := h.tables ht
    exact ⟨t', ht', hname ▸ hcheck⟩
  fields f' hf' := by
    rw [h.tableIds_eq, h.selected_eq] at hf'
    obtain ⟨f, hf, rfl⟩ := List.mem_map.1 hf'
    obtain ⟨a, ha, hcheck⟩ := hr.fields f hf
    exact ⟨_, h.fields ha, hcheck⟩

theorem writeSchema_eq_ok (h : Copies φ s s') (hl : Layout s) (hl' : Layout s') {text : String}
    (hs : (writeSchema s s.tableIds).outcome = .ok text) :
    (writeSchema s' s'.tableIds).outcome = .ok text := by
  obtain ⟨file, hfile, rfl⟩ := SaveFile.writeSchema_eq_ok.1 hs
  obtain ⟨rfl, hr⟩ := ofSchema_written hl s.nodup_tableIds hfile
  apply SaveFile.writeSchema_eq_ok.2
  refine ⟨_, (ofSchema_eq_ok_iff hl' s'.nodup_tableIds).2 ⟨rfl, h.representable hr⟩, ?_⟩
  rw [h.written_eq hl]

end Copies
end Schemata.SaveFile
