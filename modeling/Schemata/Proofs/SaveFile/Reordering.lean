import Schemata.Proofs.Keyed
import Schemata.Proofs.SaveFile.Sequence
import Mathlib.Data.List.Perm.Basic

/-!
# Rows in another order

Where the blocks of a file list all its rows and all tables that these reference, the rows only
answer look-ups by their numbers. So their order is of no account, nor is that of their lines.
-/
namespace Schemata.SaveFile
open Schema Outline Text
variable {file : SaveFile} {rows : List Row} {b : Block} {r : Row}

/-- Nothing in the file is told by its rows alone. -/
structure Exhaustive (file : SaveFile) : Prop where
  native : ∀ b ∈ file.blocks, ∀ r ∈ file.rows, r.table = b.id → r.id ∈ b.native
  related : ∀ b ∈ file.blocks, ∀ n ∈ referenced file.rows b.id, n ∈ b.related

/-! ### Permuted rows -/

theorem Consistent.perm (h : Consistent file) (hperm : rows.Perm file.rows) :
    Consistent { file with rows } where
  blockIds := h.blockIds
  rowIds := (hperm.map Row.id).nodup_iff.2 h.rowIds
  tableNames := h.tableNames
  owners r hr := h.owners r (hperm.mem_iff.1 hr)
  related := h.related
  native b hb n hn := by
    obtain ⟨r, hr, he⟩ := h.native b hb n hn
    exact ⟨r, hperm.mem_iff.2 hr, he⟩
  nativeOnce := h.nativeOnce
  typeCodes r hr := h.typeCodes r (hperm.mem_iff.1 hr)
  fieldNames r hr r' hr' := h.fieldNames r (hperm.mem_iff.1 hr) r' (hperm.mem_iff.1 hr')
  references r hr ref href := by
    obtain ⟨r', hr', he⟩ := h.references r (hperm.mem_iff.1 hr) ref href
    exact ⟨r', hperm.mem_iff.2 hr', he⟩

theorem Exhaustive.subset (h : Exhaustive file) (hsub : rows ⊆ file.rows) :
    Exhaustive { file with rows } where
  native b hb r hr := h.native b hb r (hsub hr)
  related b hb n hn :=
    h.related b hb n (List.filterMap_subset _ (List.filter_subset _ hsub) hn)

theorem find?_perm (hids : (file.rows.map Row.id).Nodup) (hperm : rows.Perm file.rows)
    (n id : Nat) : (rows.find? fun r => r.id == n && r.table == id) =
      file.rows.find? fun r => r.id == n && r.table == id := by
  ext r
  rw [find?_row hids, find?_row ((hperm.map Row.id).nodup_iff.2 hids), hperm.mem_iff]

theorem Exhaustive.unlistedRows_eq_nil (h : Exhaustive file) (hb : b ∈ file.blocks) :
    unlistedRows file.rows b = [] := by
  rw [unlistedRows, List.filter_eq_nil_iff]
  intro r hr
  simp only [Bool.and_eq_true, beq_iff_eq, Bool.not_eq_true', not_and, Bool.not_eq_false,
    List.contains_iff_mem]
  exact h.native b hb r hr

/-- The rows of a table come in the order in which its block lists them. -/
theorem placedRows_perm (hc : Consistent file) (h : Exhaustive file)
    (hperm : rows.Perm file.rows) : placedRows { file with rows } = placedRows file := by
  apply List.flatMap_congr
  intro b hb
  rw [ownRows, ownRows, (h.subset hperm.subset).unlistedRows_eq_nil hb, h.unlistedRows_eq_nil hb]
  simp only [find?_perm hc.rowIds hperm]

/-! ### The same schema -/

/-- References bring no relation that is not listed. -/
theorem related_of_exhaustive (hc : Consistent file) (h : Exhaustive file)
    (hb : b ∈ file.blocks) : (outline file).related b.id =
      (b.related.map (outline file).tablePlace).foldl enlist [] := by
  rw [related_outline hc hb, List.map_append, List.foldl_append]
  apply foldl_enlist_of_mem
  intro place hplace
  obtain ⟨n, hn, rfl⟩ := List.mem_map.1 hplace
  rw [foldl_enlist_nil, List.mem_eraseDups]
  exact List.mem_map_of_mem (h.related b hb n hn)

theorem tablePlace_perm (file : SaveFile) (rows : List Row) :
    (outline { file with rows }).tablePlace = (outline file).tablePlace :=
  tablePlace_congr (by rw [outline_blocks, outline_blocks])

section Same
variable (hc : Consistent file) (h : Exhaustive file) (hperm : rows.Perm file.rows)
include hc h hperm

theorem rows_perm : (outline { file with rows }).rows = (outline file).rows := by
  rw [outline_rows, outline_rows, placedRows_perm hc h hperm]

theorem fields_perm :
    (outline { file with rows }).schema.fields = (outline file).schema.fields := by
  have hrows := rows_perm hc h hperm
  simp only [schema, hrows]
  apply List.map_congr_left
  intro r hr
  rw [outline_rows, mem_placedRows hc.rowIds hc.owners] at hr
  have hforeign := foreign_outline (hc.perm hperm) (hperm.mem_iff.2 hr)
  rw [fieldPlace_congr hrows, ← foreign_outline hc hr] at hforeign
  rw [Outline.field, Outline.field, hforeign, tablePlace_perm file rows]

/-- The bindings of the tables are told by the fields. -/
theorem bindings_perm (hb : b ∈ file.blocks) :
    (outline { file with rows }).bindings b.id = (outline file).bindings b.id := by
  -- both schemata are reachable, so their bindings are those of their fields, which are the same
  have hreach := reachable_toSchema (toSchema_of_consistent hc)
  have hreach' := reachable_toSchema (toSchema_of_consistent (hc.perm hperm))
  obtain ⟨i, hi⟩ := List.mem_iff_getElem?.1 hb
  have htable (file : SaveFile) (hblocks : file.blocks[i]? = some b) :
      (outline file).schema.table? ⟨i⟩ = some ((outline file).table b) := by
    simp only [Schema.table?, schema, outline_blocks, List.getElem?_map, hblocks, Option.map_some]
  apply Keyed.ext_get?
  intro f
  ext g
  have hbound := bindings_invariant.holds hreach ⟨i⟩ _ (htable file hi) f g
  have hbound' := bindings_invariant.holds hreach' ⟨i⟩ _ (htable { file with rows } hi) f g
  simp only [Refers, Schema.field?, fields_perm hc h hperm] at hbound hbound'
  exact hbound'.trans hbound.symm

theorem tables_perm :
    (outline { file with rows }).schema.tables = (outline file).schema.tables := by
  simp only [schema, outline_blocks]
  apply List.map_congr_left
  intro b hb
  have hcolumns : (outline { file with rows }).columns = (outline file).columns := by
    funext id
    simp only [columns, rows_perm hc h hperm]
  have hrelated : (outline { file with rows }).related b.id = (outline file).related b.id := by
    rw [related_of_exhaustive hc h hb, ← tablePlace_perm file rows]
    exact related_of_exhaustive (hc.perm hperm) (h.subset hperm.subset) hb
  rw [Outline.table, Outline.table, hcolumns, hrelated, bindings_perm hc h hperm hb]

/-- The rows of such a file may come in any order. -/
theorem toSchema_perm : SaveFile.toSchema { file with rows } = file.toSchema := by
  rw [toSchema_of_consistent hc, toSchema_of_consistent (hc.perm hperm)]
  exact congrArg Except.ok (congrArg₂ Schema.mk (tables_perm hc h hperm) (fields_perm hc h hperm))

end Same

/-! ### Written files -/

variable {s : Schema} {selection : List TableId}

theorem exhaustive_written (hl : Layout s) (href : References s)
    (hr : Representable s selection) (hc : Consistent (written s selection)) :
    Exhaustive (written s selection) where
  native b hb r hrow ht := by
    rw [native_written hl hc hb]
    exact List.mem_map_of_mem (List.mem_filter.2 ⟨hrow, beq_iff_eq.2 ht⟩)
  related _ hb _ hn := mem_related_written hl href hr hb hn

/-- What is known of a text that has been written of distinct tables. -/
theorem exists_file_of_writeSchema (ops : List Operation) {selection : List TableId}
    (hs : selection.Nodup)
    (hsize : selection.length + ((ofHistory ops).selected selection).length < wordLimit)
    {text : String} (h : (writeSchema (ofHistory ops) selection).outcome = .ok text) :
    ∃ file : SaveFile, text = file.render ∧ Writable file ∧ Consistent file ∧ Exhaustive file ∧
      placedRows file = file.rows := by
  have hl := layout_invariant.ofHistory ops
  obtain ⟨file, hfile, rfl⟩ := writeSchema_eq_ok.1 h
  have hw := writable_ofSchema hl hsize hfile
  obtain ⟨rfl, hr⟩ := ofSchema_written hl hs hfile
  have hc := consistent_written hl hs hr
  exact ⟨_, rfl, hw, hc, exhaustive_written hl (references_invariant.ofHistory ops) hr hc,
    placedRows_written hl hc⟩

/-- Lines in another order are those of the rows in another order. -/
theorem exists_rows_perm {ls : List Line} (h : ls.Perm (rows.map rowLine)) :
    ∃ rows' : List Row, ls = rows'.map rowLine ∧ rows'.Perm rows :=
  (congrFun₂ (List.eq_map_comp_perm rowLine) ls rows).mpr h

/-- What is written of distinct tables reads back as the same schema if the lines of its fields are
permuted, and blank ones put between them. -/
theorem readSchema_reordered (ops : List Operation) {selection : List TableId}
    (hs : selection.Nodup)
    (hsize : selection.length + ((ofHistory ops).selected selection).length < 2 ^ 32)
    {text : String} (h : (writeSchema (ofHistory ops) selection).outcome = .ok text)
    {ls : List Line} (hlines : ∀ l ∈ ls, '\n' ∉ l)
    (hperm : (filledLines ls).Perm (fieldLines text)) :
    withFieldLines text (fieldLines text) = text ∧
      ∃ s', readSchema text = .ok s' ∧ readSchema (withFieldLines text ls) = .ok s' := by
  obtain ⟨file, rfl, hw, hc, hexhaustive, -⟩ := exists_file_of_writeSchema ops hs hsize h
  rw [fieldLines_render hw] at hperm
  obtain ⟨rows, hrows, hperm⟩ := exists_rows_perm hperm
  have hwritable : ∀ r ∈ rows, WritableRow r := fun r hr => hw.rows r (hperm.mem_iff.1 hr)
  refine ⟨withFieldLines_render hw, (outline file).schema, ?_, ?_⟩
  · rw [readSchema, ofText_render hw]
    exact toSchema_of_consistent hc
  · rw [readSchema, ofText_withFieldLines hw hwritable hlines hrows]
    exact (toSchema_perm hc hexhaustive hperm).trans (toSchema_of_consistent hc)

/-- The fields of the staff from the last to the first, with blank lines around them. -/
def shuffledStaff : List Line :=
  ["", "7|team|4|2|1|0|1|false|false|", "6|boss|4|5|4|3|1|false|false|", " \t ",
    "3|office|1|null|null|0|1|false|false|", "5|id|4|null|null|3|1|true|false|",
    "2|code|1|null|null|0|1|false|true|a|b ", ""].map String.toList

theorem staff_reordered : [(⟨1⟩ : TableId), ⟨0⟩].Nodup ∧
    (writeSchema (ofHistory staff) [⟨1⟩, ⟨0⟩]).outcome = .ok staffText ∧
    (filledLines shuffledStaff).Perm (fieldLines staffText) ∧
    withFieldLines staffText (fieldLines staffText) = staffText ∧
    ∃ s', readSchema staffText = .ok s' ∧
      readSchema (withFieldLines staffText shuffledStaff) = .ok s' := by
  have hperm : (filledLines shuffledStaff).Perm (fieldLines staffText) := by
    rw [fieldLines_staffText]
    decide +kernel
  have hread := readSchema_reordered staff (by decide) (by decide) outcome_staff (by decide) hperm
  exact ⟨by decide, outcome_staff, hperm, hread⟩

end Schemata.SaveFile
