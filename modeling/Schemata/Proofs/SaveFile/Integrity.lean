import Schemata.Proofs.SaveFile.Consistency
import Schemata.Proofs.SaveFile.Written

/-!
# Written files fit together

The structure of the schema makes the numbers of its file lead where they should, and what has been
checked on writing is what the reader of lines relies on.
-/
namespace Schemata.SaveFile
open Schema Text
variable {s : Schema} {selection : List TableId} {id : TableId} {f : FieldId}

theorem tableNumber_inj {id' : TableId} (hid : id ∈ selection)
    (h : tableNumber s selection id = tableNumber s selection id') : id = id' :=
  Cell.table.inj (numberAt_inj (mem_cells_table.2 hid) h)

theorem fieldNumber_inj {f' : FieldId} (hf : f ∈ s.selected selection)
    (h : fieldNumber s selection f = fieldNumber s selection f') : f = f' :=
  Cell.field.inj (numberAt_inj (mem_cells_field.2 hf) h)

theorem mem_selected_of_column (hid : id ∈ selection) (hf : f ∈ (s.tableAt id).columns) :
    f ∈ s.selected selection := List.mem_flatMap.2 ⟨id, hid, hf⟩

theorem mem_selected_of_kept {g : FieldId} (h : keptReference s selection f = some g) :
    g ∈ s.selected selection := by
  have hg := (Option.filter_eq_some_iff.1 h).2
  simpa using hg

/-! ### Texts -/

theorem hasLineBreak_eq_false {text : String} :
    hasLineBreak text = false ↔ IsLine text.toList := by
  simp only [hasLineBreak, IsLine, List.any_eq_false, Bool.or_eq_true, beq_iff_eq, not_or]
  constructor
  · exact fun h => ⟨fun hc => (h _ hc).1 rfl, fun hc => (h _ hc).2 rfl⟩
  · exact fun h c hc => ⟨fun he => h.1 (he ▸ hc), fun he => h.2 (he ▸ hc)⟩

theorem checkTableName_eq_ok {name : String} :
    checkTableName name = .ok () ↔
      name.toList ≠ [] ∧ trim name.toList = name.toList ∧ IsLine name.toList := by
  have hiff : (name.isEmpty || trim name.toList != name.toList || hasLineBreak name) = false ↔
      name.toList ≠ [] ∧ trim name.toList = name.toList ∧ IsLine name.toList := by
    simp [hasLineBreak_eq_false, and_assoc]
  rw [← hiff, checkTableName]
  split
  · rename_i hc
    simp [hc]
  · rename_i hc
    simp [hc]

theorem checkField_eq_ok {a : Field} :
    checkField a = .ok () ↔ (a.name.toList ≠ [] ∧ delimiter ∉ a.name.toList ∧
      IsLine a.name.toList) ∧ IsLine a.default.toList := by
  have hiff : (a.name.isEmpty || a.name.toList.contains delimiter || hasLineBreak a.name) = false ↔
      a.name.toList ≠ [] ∧ delimiter ∉ a.name.toList ∧ IsLine a.name.toList := by
    simp [hasLineBreak_eq_false, and_assoc]
  rw [← hiff, ← hasLineBreak_eq_false, checkField]
  split
  · rename_i hc
    simp only [hc, Bool.true_eq_false, false_and, reduceCtorEq]
  · rename_i hc
    rw [Bool.not_eq_true] at hc
    split
    · rename_i hd
      simp only [hd, Bool.true_eq_false, and_false, reduceCtorEq]
    · rename_i hd
      rw [Bool.not_eq_true] at hd
      simp only [hc, hd, and_self]

/-! ### Structure -/

theorem tableNumber_mem (hid : id ∈ selection) :
    tableNumber s selection id ∈ (written s selection).blocks.map Block.id := by
  rw [written, List.map_map]
  exact List.mem_map.2 ⟨id, hid, rfl⟩

/-- The name and the table of a row are those of its field. -/
theorem rowOf_inj (hl : Layout s) {f' : FieldId} (hf : f ∈ s.selected selection)
    (hf' : f' ∈ s.selected selection)
    (ht : (rowOf s selection f).table = (rowOf s selection f').table)
    (hn : (rowOf s selection f).name = (rowOf s selection f').name) : f = f' := by
  obtain ⟨a, ha, -⟩ := hl.mem_selected.1 hf
  obtain ⟨b, hb, -⟩ := hl.mem_selected.1 hf'
  have htable : a.table = b.table := by
    have he := tableNumber_inj (hl.fieldAt_table_mem hf) ht
    rwa [fieldAt_eq ha, fieldAt_eq hb] at he
  have hname : a.name = b.name := by
    simpa only [rowOf, fieldAt_eq ha, fieldAt_eq hb] using hn
  exact hl.eq_of_name ha hb htable hname

theorem consistent_written (hl : Layout s) (hs : selection.Nodup) (hr : Representable s selection) :
    Consistent (written s selection) where
  blockIds := by
    rw [written, List.map_map]
    exact hs.map_on fun id hid id' _ h => tableNumber_inj hid h
  rowIds := by
    rw [written, List.map_map]
    exact (hl.nodup_selected hs).map_on fun f hf f' _ h => fieldNumber_inj hf h
  tableNames := by
    rw [written, List.map_map]
    apply hs.map_on
    intro id hid id' hid' h
    obtain ⟨t, ht, -⟩ := hr.tables id hid
    obtain ⟨t', ht', -⟩ := hr.tables id' hid'
    rw [Function.comp_apply, Function.comp_apply, blockOf, blockOf, tableAt_eq ht,
      tableAt_eq ht'] at h
    exact hl.eq_of_tableName ht ht' h
  owners r hr' := by
    obtain ⟨f, hf, rfl⟩ := List.mem_map.1 hr'
    exact tableNumber_mem (hl.fieldAt_table_mem hf)
  related b hb n hn := by
    obtain ⟨id, hid, rfl⟩ := List.mem_map.1 hb
    obtain ⟨other, hother, rfl⟩ := List.mem_map.1 hn
    exact tableNumber_mem (by simpa using (List.mem_filter.1 hother).2)
  native b hb n hn := by
    obtain ⟨id, hid, rfl⟩ := List.mem_map.1 hb
    obtain ⟨f, hf, rfl⟩ := List.mem_map.1 hn
    obtain ⟨a, ha, rfl⟩ := hl.mem_columnsAt.1 hf
    refine ⟨_, List.mem_map_of_mem (mem_selected_of_column hid hf), rfl, ?_⟩
    simp [rowOf, blockOf, fieldAt_eq ha]
  nativeOnce b hb := by
    obtain ⟨id, hid, rfl⟩ := List.mem_map.1 hb
    exact (hl.nodup_columnsAt id).map_on fun f hf f' _ h =>
      fieldNumber_inj (mem_selected_of_column hid hf) h
  typeCodes r hr' := by
    obtain ⟨f, -, rfl⟩ := List.mem_map.1 hr'
    exact ⟨_, DataType.ofCode?_code _⟩
  fieldNames r hr r' hr' ht hn := by
    obtain ⟨f, hf, rfl⟩ := List.mem_map.1 hr
    obtain ⟨f', hf', rfl⟩ := List.mem_map.1 hr'
    rw [rowOf_inj hl hf hf' ht hn]
  references r hr' ref href := by
    obtain ⟨f, hf, rfl⟩ := List.mem_map.1 hr'
    obtain ⟨g, hg, rfl⟩ := Option.map_eq_some_iff.1 href
    exact ⟨_, List.mem_map_of_mem (mem_selected_of_kept hg), rfl, rfl⟩

end Schemata.SaveFile
