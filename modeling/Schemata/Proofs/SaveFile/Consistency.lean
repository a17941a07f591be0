import Schemata.Proofs.Lists
import Schemata.SaveFile.Assembly

/-!
# Files that fit together

The numbers in a consistent file lead where they should. Then each row is placed once: in the table
that it names, as listed there or after the listed ones.
-/
namespace Schemata.SaveFile

/-- The rows of a table in the order of its columns. -/
def ownRows (rows : List Row) (b : Block) : List Row :=
  (b.native.filterMap fun n => rows.find? fun r => r.id == n && r.table == b.id) ++
    unlistedRows rows b

/-- All rows in the order in which they become fields. -/
def placedRows (file : SaveFile) : List Row := file.blocks.flatMap (ownRows file.rows)

structure Consistent (file : SaveFile) : Prop where
  blockIds : (file.blocks.map Block.id).Nodup
  rowIds : (file.rows.map Row.id).Nodup
  tableNames : (file.blocks.map Block.name).Nodup
  owners : ∀ r ∈ file.rows, r.table ∈ file.blocks.map Block.id
  related : ∀ b ∈ file.blocks, ∀ n ∈ b.related, n ∈ file.blocks.map Block.id
  native : ∀ b ∈ file.blocks, ∀ n ∈ b.native, ∃ r ∈ file.rows, r.id = n ∧ r.table = b.id
  nativeOnce : ∀ b ∈ file.blocks, b.native.Nodup
  typeCodes : ∀ r ∈ file.rows, ∃ type, DataType.ofCode? r.typeCode = some type
  fieldNames : ∀ r ∈ file.rows, ∀ r' ∈ file.rows, r.table = r'.table → r.name = r'.name → r = r'
  references : ∀ r ∈ file.rows, ∀ ref, r.foreign = some ref →
    ∃ r' ∈ file.rows, r'.id = ref.field ∧ r'.table = ref.table

variable {rows : List Row} {file : SaveFile} {b : Block} {r : Row}

theorem find?_row (hids : (rows.map Row.id).Nodup) {n id : Nat} :
    (rows.find? fun r => r.id == n && r.table == id) = some r ↔
      r ∈ rows ∧ r.id = n ∧ r.table = id := by
  constructor
  · intro hr
    have hp := List.find?_some hr
    simp only [Bool.and_eq_true, beq_iff_eq] at hp
    exact ⟨List.mem_of_find?_eq_some hr, hp⟩
  · rintro ⟨hr, rfl, rfl⟩
    cases hf : rows.find? fun r' => r'.id == r.id && r'.table == r.table with
    | none =>
      have hno := List.find?_eq_none.1 hf r hr
      simp at hno
    | some r' =>
      have hp := List.find?_some hf
      simp only [Bool.and_eq_true, beq_iff_eq] at hp
      have he : r' = r := eq_of_key_eq hids (List.mem_of_find?_eq_some hf) hr hp.1
      rw [he]

theorem mem_listed (hids : (rows.map Row.id).Nodup) :
    r ∈ (b.native.filterMap fun n => rows.find? fun r => r.id == n && r.table == b.id) ↔
      r ∈ rows ∧ r.table = b.id ∧ r.id ∈ b.native := by
  simp only [List.mem_filterMap, find?_row hids]
  constructor
  · rintro ⟨n, hn, hr, rfl, hid⟩
    exact ⟨hr, hid, hn⟩
  · rintro ⟨hr, hid, hn⟩
    exact ⟨r.id, hn, hr, rfl, hid⟩

theorem mem_ownRows (hids : (rows.map Row.id).Nodup) :
    r ∈ ownRows rows b ↔ r ∈ rows ∧ r.table = b.id := by
  rw [ownRows, List.mem_append, mem_listed hids, unlistedRows, List.mem_filter]
  by_cases hn : r.id ∈ b.native <;> simp [hn]

/-- Where each listed number is that of a row, the listed rows have just these numbers. -/
theorem map_id_ownRows (hnative : ∀ n ∈ b.native, ∃ r ∈ rows, r.id = n ∧ r.table = b.id) :
    (ownRows rows b).map Row.id = b.native ++ (unlistedRows rows b).map Row.id := by
  have hid : ∀ n ∈ b.native,
      (rows.find? fun r => r.id == n && r.table == b.id).map Row.id = some n := by
    intro n hn
    obtain ⟨r, hr, hrn, hrb⟩ := hnative n hn
    cases hf : rows.find? fun r => r.id == n && r.table == b.id with
    | none =>
      have hno := List.find?_eq_none.1 hf r hr
      simp [hrn, hrb] at hno
    | some r' =>
      have hp := List.find?_some hf
      simp only [Bool.and_eq_true, beq_iff_eq] at hp
      rw [Option.map_some, hp.1]
  rw [ownRows, List.map_append, List.map_filterMap, List.filterMap_congr hid, List.filterMap_some]

theorem mem_placedRows (hids : (file.rows.map Row.id).Nodup)
    (howners : ∀ r ∈ file.rows, r.table ∈ file.blocks.map Block.id) :
    r ∈ placedRows file ↔ r ∈ file.rows := by
  rw [placedRows, List.mem_flatMap]
  constructor
  · rintro ⟨b, -, hr⟩
    exact ((mem_ownRows hids).1 hr).1
  · intro hr
    obtain ⟨b, hb, hid⟩ := List.mem_map.1 (howners r hr)
    exact ⟨b, hb, (mem_ownRows hids).2 ⟨hr, hid.symm⟩⟩

namespace Consistent

theorem nodup_rows (h : Consistent file) : file.rows.Nodup := h.rowIds.of_map

theorem nodup_ownRows (h : Consistent file) (hb : b ∈ file.blocks) :
    (ownRows file.rows b).Nodup := by
  apply List.nodup_append.2
  refine ⟨?_, h.nodup_rows.filter _, ?_⟩
  · apply (h.nativeOnce b hb).filterMap
    intro n n' r hr hr'
    rw [Option.mem_def, find?_row h.rowIds] at hr hr'
    exact hr.2.1.symm.trans hr'.2.1
  · intro r hr r' hr' he
    rw [mem_listed h.rowIds] at hr
    rw [unlistedRows, List.mem_filter] at hr'
    simp [← he, hr.2.2] at hr'

/-- Every row is placed once. -/
theorem placedRows_perm (h : Consistent file) : (placedRows file).Perm file.rows := by
  have hnodup : (placedRows file).Nodup := by
    rw [placedRows, List.nodup_flatMap]
    constructor
    · exact fun b hb => h.nodup_ownRows hb
    · apply (List.pairwise_map.1 h.blockIds).imp
      intro b b' hne r hr hr'
      rw [mem_ownRows h.rowIds] at hr hr'
      exact hne (hr.2.symm.trans hr'.2)
  rw [List.perm_ext_iff_of_nodup hnodup h.nodup_rows]
  exact fun r => mem_placedRows h.rowIds h.owners

/-- The rows of one table among all placed rows. -/
theorem filter_placedRows (h : Consistent file) (hb : b ∈ file.blocks) :
    ((placedRows file).filter fun r => r.table == b.id) = ownRows file.rows b := by
  apply filter_flatMap_key h.blockIds
  · exact fun c _ r hr => ((mem_ownRows h.rowIds).1 hr).2
  · exact hb

end Consistent
end Schemata.SaveFile
