import Schemata.Proofs.Model.Bindings
import Schemata.Proofs.SaveFile.Acceptance
import Schemata.Proofs.SaveFile.Assembled
import Schemata.Proofs.SaveFile.Reachability

/-!
# What a file describes

A file is put together exactly if it is consistent. The schema that comes of it has the file's
tables in the order of the blocks, and every record in it is what one block or row says.
-/
namespace Schemata.SaveFile
open Outline
variable {file : SaveFile} {b : Block} {r : Row}

/-- The numbers of a table's columns: the listed ones, then the others in the order of the rows. -/
def columnNumbers (rows : List Row) (b : Block) : List Nat :=
  b.native ++ (unlistedRows rows b).map Row.id

/-- The numbers of related tables: the listed ones, then those that only references lead to. Each
stands where it comes first. -/
def relatedNumbers (rows : List Row) (b : Block) : List Nat :=
  b.related.eraseDups ++ ((referenced rows b.id).removeAll b.related).eraseDups

/-- Tables are made in the order of their blocks. -/
def blockPlace (file : SaveFile) (number : Nat) : TableId :=
  ⟨(file.blocks.map Block.id).idxOf number⟩

/-- Fields are made table by table. -/
def rowPlace (file : SaveFile) (number : Nat) : FieldId :=
  ⟨(file.blocks.flatMap (columnNumbers file.rows)).idxOf number⟩

/-- The field of a row, which references what the row itself names. -/
def describedField (file : SaveFile) (r : Row) (type : DataType) : Field where
  name := r.name
  table := blockPlace file r.table
  dataType := type
  length := r.length
  default := r.default
  allowNull := !r.notNull
  primaryKey := r.primaryKey
  foreign := r.foreign.map fun ref => rowPlace file ref.field

structure Describes (file : SaveFile) (s : Schema) : Prop where
  tableNames : s.tables.map (·.name) = file.blocks.map Block.name
  fieldCount : s.fields.length = file.rows.length
  tables : ∀ b ∈ file.blocks, ∃ t, s.table? (blockPlace file b.id) = some t ∧ t.name = b.name ∧
    t.columns = (columnNumbers file.rows b).map (rowPlace file) ∧
    t.related = (relatedNumbers file.rows b).map (blockPlace file) ∧ t.indexes = ∅
  fields : ∀ r ∈ file.rows, ∃ type, DataType.ofCode? r.typeCode = some type ∧
    s.field? (rowPlace file r.id) = some (describedField file r type)
  /-- The table of a field binds it as the row of the field says. -/
  bindings : ∀ b ∈ file.blocks, ∀ t, s.table? (blockPlace file b.id) = some t →
    ∀ f g, t.boundTo? f = some g ↔ ∃ r ∈ file.rows, ∃ ref, r.table = b.id ∧
      r.foreign = some ref ∧ f = rowPlace file r.id ∧ g = rowPlace file ref.field

/-! ### Places -/

theorem blockIds_outline (file : SaveFile) :
    (outline file).blockIds = file.blocks.map Block.id := by
  rw [blockIds, outline_blocks]

theorem rowIds_outline (h : Consistent file) :
    (outline file).rowIds = file.blocks.flatMap (columnNumbers file.rows) := by
  have hown : ∀ b ∈ file.blocks,
      (ownRows file.rows b).map Row.id = columnNumbers file.rows b :=
    fun b hb => map_id_ownRows (h.native b hb)
  rw [rowIds, outline_rows, placedRows, List.map_flatMap, List.flatMap_congr hown]

theorem nodup_rowIds_outline (h : Consistent file) : (outline file).rowIds.Nodup := by
  rw [rowIds, outline_rows]
  exact (h.placedRows_perm.map Row.id).nodup_iff.2 h.rowIds

theorem tablePlace_outline (file : SaveFile) : (outline file).tablePlace = blockPlace file := by
  funext n
  rw [tablePlace, blockIds_outline, blockPlace]

theorem fieldPlace_outline (h : Consistent file) :
    (outline file).fieldPlace = rowPlace file := by
  funext n
  rw [fieldPlace, rowIds_outline h, rowPlace]

theorem mem_outline_rows (h : Consistent file) : r ∈ (outline file).rows ↔ r ∈ file.rows := by
  rw [outline_rows]
  exact h.placedRows_perm.mem_iff

/-! ### Records -/

theorem columns_described (h : Consistent file) (hb : b ∈ file.blocks) :
    (outline file).columns b.id = (columnNumbers file.rows b).map (rowPlace file) := by
  rw [columns_outline h hb, ← fieldPlace_outline h, columnNumbers,
    ← map_id_ownRows (h.native b hb), List.map_map]
  rfl

/-- References lead to listed tables. -/
theorem mem_blockIds_of_referenced (h : Consistent file) {n : Nat}
    (hn : n ∈ referenced file.rows b.id) : n ∈ file.blocks.map Block.id := by
  obtain ⟨r, hr, hrn⟩ := List.mem_filterMap.1 hn
  obtain ⟨ref, href, rfl⟩ := Option.map_eq_some_iff.1 hrn
  obtain ⟨r', hr', -, htable⟩ := h.references r (List.mem_of_mem_filter hr) ref href
  exact htable ▸ h.owners r' hr'

theorem related_described (h : Consistent file) (hb : b ∈ file.blocks) :
    (outline file).related b.id = (relatedNumbers file.rows b).map (blockPlace file) := by
  have hinj : ∀ n m, n ∈ file.blocks.map Block.id → m ∈ file.blocks.map Block.id →
      blockPlace file n = blockPlace file m → n = m :=
    fun n m hn _ he => (List.idxOf_inj hn).1 (congrArg TableId.index he)
  have hlisted : ∀ n ∈ b.related ++ referenced file.rows b.id, n ∈ file.blocks.map Block.id := by
    intro n hn
    rcases List.mem_append.1 hn with hn | hn
    · exact h.related b hb n hn
    · exact mem_blockIds_of_referenced h hn
  have hmap := foldl_enlist_map hinj (l := []) (fun _ hn => absurd hn List.not_mem_nil) hlisted
  rw [List.map_nil] at hmap
  rw [related_outline h hb, tablePlace_outline, hmap, foldl_enlist_nil, List.eraseDups_append,
    relatedNumbers]

theorem field_described (h : Consistent file) (hr : r ∈ file.rows) {type : DataType}
    (htype : DataType.ofCode? r.typeCode = some type) :
    (outline file).field r = describedField file r type := by
  rw [Outline.field, foreign_outline h hr, tablePlace_outline, fieldPlace_outline h, htype]
  rfl

/-- By its record, the field of a row references what the row names, and no other field does. -/
theorem refers_outline (h : Consistent file) (b : Block) (f g : FieldId) :
    Schema.Refers (outline file).schema (blockPlace file b.id) f g ↔
      ∃ r ∈ file.rows, ∃ ref, r.table = b.id ∧ r.foreign = some ref ∧
        f = rowPlace file r.id ∧ g = rowPlace file ref.field := by
  have hids := nodup_rowIds_outline h
  rw [← tablePlace_outline, ← fieldPlace_outline h]
  constructor
  · rintro ⟨a, ha, htable, hforeign⟩
    obtain ⟨r, hr, rfl, rfl⟩ := exists_row_of_field? hids ha
    rw [mem_outline_rows h] at hr
    rw [Outline.field, foreign_outline h hr] at hforeign
    obtain ⟨ref, href, rfl⟩ := Option.map_eq_some_iff.1 hforeign
    refine ⟨r, hr, ref, ?_, href, rfl, rfl⟩
    have hlisted : r.table ∈ (outline file).blockIds := by
      rw [blockIds_outline]
      exact h.owners r hr
    exact (List.idxOf_inj hlisted).1 (congrArg TableId.index htable)
  · rintro ⟨r, hr, ref, htable, href, rfl, rfl⟩
    refine ⟨_, field?_fieldPlace hids ((mem_outline_rows h).2 hr), ?_, ?_⟩
    · rw [field_table, htable]
    · exact (foreign_outline h hr).trans (by rw [href, Option.map_some])

/-! ### Files -/

theorem describes_outline (h : Consistent file) : Describes file (outline file).schema where
  tableNames := by
    rw [schema, outline_blocks, List.map_map]
    rfl
  fieldCount := by
    rw [schema, List.length_map, outline_rows]
    exact h.placedRows_perm.length_eq
  tables b hb := by
    have hids : (outline file).blockIds.Nodup := by
      rw [blockIds_outline]
      exact h.blockIds
    refine ⟨(outline file).table b, ?_, rfl, columns_described h hb, related_described h hb, rfl⟩
    rw [← tablePlace_outline]
    exact table?_tablePlace hids (by rwa [outline_blocks])
  fields r hr := by
    obtain ⟨type, htype⟩ := h.typeCodes r hr
    refine ⟨type, htype, ?_⟩
    rw [← field_described h hr htype, ← fieldPlace_outline h]
    exact field?_fieldPlace (nodup_rowIds_outline h) ((mem_outline_rows h).2 hr)
  bindings b hb t ht f g := by
    have hreach := reachable_toSchema (toSchema_of_consistent h)
    exact (Schema.bindings_invariant.holds hreach _ t ht f g).trans (refers_outline h b f g)

/-- Acceptance is consistency, and what comes of a file is what it describes, however the file was
written. -/
theorem toSchema_describes (hblocks : (file.blocks.map Block.id).Nodup)
    (hrows : (file.rows.map Row.id).Nodup) :
    ((∃ s, file.toSchema = .ok s) ↔ Consistent file) ∧
      ∀ s, file.toSchema = .ok s → Describes file s := by
  constructor
  · constructor
    · rintro ⟨s, hs⟩
      exact consistent_of_toSchema hblocks hrows hs
    · exact fun h => ⟨_, toSchema_of_consistent h⟩
  · intro s hs
    have h := consistent_of_toSchema hblocks hrows hs
    cases (toSchema_of_consistent h).symm.trans hs
    exact describes_outline h

/-- Only one of the columns of orders is listed. Orders reference persons, which come later and are
not listed as related, and each other. -/
def orders : SaveFile where
  blocks := [⟨7, "Order", [3], [7, 7], [0]⟩, ⟨9, "Person", [], [], []⟩]
  rows := [⟨5, "buyer", 7, some ⟨4, 9⟩, 3, 1, false, true, ""⟩,
    ⟨3, "number", 7, none, 3, 1, true, true, "0"⟩,
    ⟨4, "name", 9, none, 0, 50, true, false, ""⟩,
    ⟨6, "parent", 7, some ⟨3, 7⟩, 3, 1, false, false, ""⟩]

def ordersSchema : Schema where
  tables := [
    { name := "Order", columns := [⟨0⟩, ⟨1⟩, ⟨2⟩], related := [⟨0⟩, ⟨1⟩]
      bindings := ⟨[(⟨1⟩, ⟨3⟩), (⟨2⟩, ⟨0⟩)], by decide⟩ },
    { name := "Person", columns := [⟨3⟩] }]
  fields := [
    { name := "number", table := ⟨0⟩, dataType := .integer, default := "0", allowNull := false,
      primaryKey := true },
    { name := "buyer", table := ⟨0⟩, dataType := .integer, allowNull := false,
      foreign := some ⟨3⟩ },
    { name := "parent", table := ⟨0⟩, dataType := .integer, foreign := some ⟨0⟩ },
    { name := "name", table := ⟨1⟩, length := 50, primaryKey := true }]

theorem orders_described : (orders.blocks.map Block.id).Nodup ∧ (orders.rows.map Row.id).Nodup ∧
    orders.toSchema = .ok ordersSchema ∧ Consistent orders ∧ Describes orders ordersSchema := by
  have hblocks : (orders.blocks.map Block.id).Nodup := by decide
  have hrows : (orders.rows.map Row.id).Nodup := by decide
  obtain ⟨hiff, hdescribes⟩ := toSchema_describes hblocks hrows
  have hread : orders.toSchema = .ok ordersSchema := rfl
  exact ⟨hblocks, hrows, hread, hiff.1 ⟨_, hread⟩, hdescribes _ hread⟩

end Schemata.SaveFile
