import Schemata.Proofs.SaveFile.Assembly

/-!
# What comes of a consistent file

The columns of a table are its own rows in order. A table is related to the tables that its block
lists and then to those that its rows reference. A field references the field that its row names.
-/
namespace Schemata.SaveFile
open Outline
variable {file : SaveFile} {k : Outline} {b : Block} {r : Row}

/-! ### References -/

theorem foldl_withReference (rs : List Row) (k : Outline) :
    (rs.foldl withReference k).blocks = k.blocks ∧ (rs.foldl withReference k).rows = k.rows := by
  induction rs generalizing k with
  | nil => exact ⟨rfl, rfl⟩
  | cons r rs ih =>
    obtain ⟨hblocks, hrows⟩ := withReference_frame k r
    obtain ⟨hblocks', hrows'⟩ := ih (k.withReference r)
    exact ⟨hblocks'.trans hblocks, hrows'.trans hrows⟩

theorem outline_blocks (file : SaveFile) : (outline file).blocks = file.blocks := by
  rw [outline, (foldl_withReference _ _).1, listed_eq]

theorem outline_rows (file : SaveFile) : (outline file).rows = placedRows file := by
  rw [outline, (foldl_withReference _ _).2, listed_eq]

theorem foreign_withReference (k : Outline) (r : Row) (id : Nat) :
    (k.withReference r).foreign id = if id = r.id then
      (r.foreign.map fun ref => k.fieldPlace ref.field).or (k.foreign id) else k.foreign id := by
  unfold withReference
  cases r.foreign with
  | none => simp
  | some ref =>
    by_cases h : id = r.id
    · simp [withBound, withRelated, fieldPlace, rowIds, h]
    · simp [withBound, withRelated, h]

theorem foreign_foldl (rs : List Row) (hids : (rs.map Row.id).Nodup) (hr : r ∈ rs)
    (hk : k.foreign r.id = none) : (rs.foldl withReference k).foreign r.id =
      r.foreign.map fun ref => k.fieldPlace ref.field := by
  have hother {rs : List Row} {k : Outline} (h : r.id ∉ rs.map Row.id) :
      (rs.foldl withReference k).foreign r.id = k.foreign r.id := by
    induction rs generalizing k with
    | nil => rfl
    | cons s rs ih =>
      rw [List.map_cons, List.mem_cons, not_or] at h
      rw [List.foldl_cons, ih h.2, foreign_withReference, if_neg h.1]
  induction rs generalizing k with
  | nil => cases hr
  | cons s rs ih =>
    rw [List.map_cons, List.nodup_cons] at hids
    rw [List.foldl_cons]
    rcases List.mem_cons.1 hr with rfl | hr
    · rw [hother hids.1, foreign_withReference, if_pos rfl, hk, Option.or_none]
    · have hne : r.id ≠ s.id := fun he => hids.1 (he ▸ List.mem_map_of_mem hr)
      rw [ih hids.2 hr (by rw [foreign_withReference, if_neg hne, hk]),
        fieldPlace_congr (withReference_frame k s).2]

/-- The reference of a field is the one that its row names. -/
theorem foreign_outline (h : Consistent file) (hr : r ∈ file.rows) :
    (outline file).foreign r.id =
      r.foreign.map fun ref => (outline file).fieldPlace ref.field := by
  have hplace : (outline file).fieldPlace = (listed file).fieldPlace :=
    fieldPlace_congr (foldl_withReference file.rows (listed file)).2
  rw [hplace]
  apply foreign_foldl _ h.rowIds hr
  rw [listed_eq]

/-! ### Relations -/

/-- The numbers of the tables that the rows of one table reference, in the order of the rows. -/
def referenced (rows : List Row) (id : Nat) : List Nat :=
  (rows.filter fun r => r.table == id).filterMap fun r => r.foreign.map Reference.table

theorem related_withRelated (id id' : Nat) (related : List Nat) :
    (k.withRelated id related).related id' = if id' = id then
      (related.map k.tablePlace).foldl enlist (k.related id') else k.related id' := by
  by_cases h : id' = id
  · simp [withRelated, h]
  · simp [withRelated, h]

theorem related_foldl_filled (bs : List Block) (hids : (bs.map Block.id).Nodup) (hb : b ∈ bs)
    (rows : List Row) : (bs.foldl (filled rows) k).related b.id =
      (b.related.map k.tablePlace).foldl enlist (k.related b.id) := by
  have hother {bs : List Block} {k : Outline} (h : b.id ∉ bs.map Block.id) :
      (bs.foldl (filled rows) k).related b.id = k.related b.id := by
    induction bs generalizing k with
    | nil => rfl
    | cons c bs ih =>
      rw [List.map_cons, List.mem_cons, not_or] at h
      rw [List.foldl_cons, ih h.2]
      exact (related_withRelated ..).trans (if_neg h.1)
  induction bs generalizing k with
  | nil => cases hb
  | cons c bs ih =>
    rw [List.map_cons, List.nodup_cons] at hids
    rw [List.foldl_cons]
    rcases List.mem_cons.1 hb with rfl | hb
    · rw [hother hids.1]
      exact (related_withRelated ..).trans (if_pos rfl)
    · have hne : b.id ≠ c.id := fun he => hids.1 (he ▸ List.mem_map_of_mem hb)
      rw [ih hids.2 hb, show (k.filled rows c).related b.id = k.related b.id from
        (related_withRelated ..).trans (if_neg hne)]
      rfl

theorem related_foldl (rs : List Row) (id : Nat) : (rs.foldl withReference k).related id =
    ((referenced rs id).map k.tablePlace).foldl enlist (k.related id) := by
  induction rs generalizing k with
  | nil => rfl
  | cons r rs ih =>
    rw [List.foldl_cons, ih, tablePlace_congr (withReference_frame k r).1]
    unfold withReference referenced
    by_cases hid : r.table = id
    · cases hf : r.foreign with
      | none => simp [hid, hf]
      | some ref => simp [hid, hf, withBound, withRelated]
    · cases hf : r.foreign with
      | none => simp [hid]
      | some ref => simp [hid, withBound, withRelated, Ne.symm hid]

/-- Listed relations come first, then those that references bring along. -/
theorem related_outline (h : Consistent file) (hb : b ∈ file.blocks) :
    (outline file).related b.id =
      ((b.related ++ referenced file.rows b.id).map (outline file).tablePlace).foldl enlist [] := by
  have hplace : (outline file).tablePlace = tablePlace { blocks := file.blocks } :=
    tablePlace_congr (outline_blocks file)
  have hplace' : (listed file).tablePlace = tablePlace { blocks := file.blocks } :=
    tablePlace_congr (by rw [listed_eq])
  rw [hplace, outline, related_foldl, hplace', listed,
    related_foldl_filled file.blocks h.blockIds hb, List.map_append, List.foldl_append]

/-! ### Columns -/

theorem columns_outline (h : Consistent file) (hb : b ∈ file.blocks) :
    (outline file).columns b.id =
      (ownRows file.rows b).map fun r => (outline file).fieldPlace r.id := by
  have hids : (outline file).rowIds.Nodup := by
    rw [rowIds, outline_rows]
    exact (h.placedRows_perm.map Row.id).nodup_iff.2 h.rowIds
  rw [columns_eq hids, outline_rows, h.filter_placedRows hb]

end Schemata.SaveFile
