import Schemata.Proofs.SaveFile.Offences

/-!
# What can be written

The checks of names and defaults are all that stands between a selection and its file: what passes
them is written, also where tables are selected again. Every id that is looked up on the way is
there, because the columns of a table, their owner and what they reference lead to each other.
-/
namespace Schemata.SaveFile
open Schema
variable {s : Schema} {selection : List TableId} {n : Numbers} {id : TableId} {f : FieldId}

theorem tableOffences_eq_nil_iff (hl : Layout s) : tableOffences s id = [] ↔
    (∃ t, s.table? id = some t ∧ checkTableName t.name = .ok ()) ∧
      ∀ f ∈ (s.tableAt id).columns, ∃ a, s.field? f = some a ∧ checkField a = .ok () := by
  unfold tableOffences
  cases ht : s.table? id with
  | none => simp
  | some t =>
    rw [List.append_eq_nil_iff, List.flatMap_eq_nil_iff, tableAt_eq ht]
    apply and_congr
    · rw [← (judged_checkTableName t.name).exists_ok_iff, Unique.exists_iff]
      simp
    · apply forall₂_congr
      intro f hf
      obtain ⟨a, ha, -⟩ := (hl.mem_columns ht f).1 hf
      rw [fieldAt_eq ha, ← (judged_checkField a).exists_ok_iff, Unique.exists_iff]
      simp [ha]

theorem offences_eq_nil_iff (hl : Layout s) :
    offences s selection = [] ↔ Representable s selection := by
  simp only [offences, List.flatMap_eq_nil_iff, tableOffences_eq_nil_iff hl]
  constructor
  · intro h
    refine ⟨fun id hid => (h id hid).1, fun f hf => ?_⟩
    obtain ⟨id, hid, hf⟩ := List.mem_flatMap.1 hf
    exact (h id hid).2 f hf
  · intro hr id hid
    exact ⟨hr.tables id hid, fun f hf => hr.fields f (mem_selected_of_column hid hf)⟩

/-! ### Look-ups -/

/-- Every id that is met on writing is known and has a number. -/
structure Complete (s : Schema) (selection : List TableId) (n : Numbers) : Prop where
  tables : ∀ id ∈ selection, ∃ t m, s.table? id = some t ∧ n.table id = .ok m
  /-- A column and its owner are numbered, -/
  columns : ∀ f ∈ s.selected selection, ∃ a m k, s.field? f = some a ∧ n.field f = .ok m ∧
    n.table a.table = .ok k
  /-- and with a numbered field that it references the table of that one, too. -/
  targets : ∀ f ∈ s.selected selection, ∀ a g m, s.field? f = some a → a.foreign = some g →
    n.field? g = some m → ∃ b k, s.field? g = some b ∧ n.table b.table = .ok k

theorem Covers.complete (hn : Covers selection (s.selected selection) n) (hl : Layout s)
    (hr : Representable s selection) : Complete s selection n where
  tables id hid := by
    obtain ⟨t, ht, -⟩ := hr.tables id hid
    obtain ⟨m, hm⟩ := (hn.tables id).2 hid
    exact ⟨t, m, ht, Numbers.table_eq_ok.2 hm⟩
  columns f hf := by
    obtain ⟨a, ha, hat⟩ := hl.mem_selected.1 hf
    obtain ⟨m, hm⟩ := (hn.fields f).2 hf
    obtain ⟨k, hk⟩ := (hn.tables a.table).2 hat
    exact ⟨a, m, k, ha, Numbers.field_eq_ok.2 hm, Numbers.table_eq_ok.2 hk⟩
  targets f _ a g m _ _ hm := by
    obtain ⟨b, hb, hbt⟩ := hl.mem_selected.1 ((hn.fields g).1 ⟨m, hm⟩)
    obtain ⟨k, hk⟩ := (hn.tables b.table).2 hbt
    exact ⟨b, k, hb, Numbers.table_eq_ok.2 hk⟩

/-! ### Blocks and rows -/

namespace Complete
variable (hc : Complete s selection n)
include hc

theorem exists_tableBlock (hid : id ∈ selection) : ∃ b, tableBlock s n id = .ok b := by
  obtain ⟨t, m, ht, hm⟩ := hc.tables id hid
  have hcolumn : ∀ f ∈ t.columns, f ∈ s.selected selection := by
    intro f hf
    rw [← tableAt_eq ht] at hf
    exact mem_selected_of_column hid hf
  obtain ⟨as, has⟩ : ∃ as, t.columns.mapM s.writtenField = .ok as := by
    apply mapM_isOk.2
    intro f hf
    obtain ⟨a, _, _, ha, -⟩ := hc.columns f (hcolumn f hf)
    exact ⟨a, writtenField_eq_ok.2 ha⟩
  obtain ⟨native, hnative⟩ : ∃ native, t.columns.mapM n.field = .ok native := by
    apply mapM_isOk.2
    intro f hf
    obtain ⟨_, k, _, -, hk, -⟩ := hc.columns f (hcolumn f hf)
    exact ⟨k, hk⟩
  simp only [tableBlock, bind_eq_ok, writtenTable_eq_ok, pure_eq_ok]
  exact ⟨_, t, ht, as, has, m, hm, native, hnative, rfl⟩

theorem exists_reference (hf : f ∈ s.selected selection) {a : Field} (ha : s.field? f = some a) :
    ∃ ref, reference s n a = .ok ref := by
  unfold reference
  cases hg : a.foreign with
  | none => exact ⟨none, rfl⟩
  | some g =>
    cases hm : n.field? g with
    | none =>
      simp only [hm]
      exact ⟨none, rfl⟩
    | some m =>
      obtain ⟨b, k, hb, hk⟩ := hc.targets f hf a g m ha hg hm
      simp only [hm, bind_eq_ok, writtenField_eq_ok, pure_eq_ok]
      exact ⟨_, b, hb, k, hk, rfl⟩

theorem exists_fieldRow (hf : f ∈ s.selected selection) : ∃ r, fieldRow s n f = .ok r := by
  obtain ⟨a, m, k, ha, hm, hk⟩ := hc.columns f hf
  obtain ⟨ref, href⟩ := hc.exists_reference hf ha
  simp only [fieldRow, bind_eq_ok, writtenField_eq_ok, pure_eq_ok]
  exact ⟨_, a, ha, m, hm, k, hk, ref, href, rfl⟩

theorem exists_tableRows (hid : id ∈ selection) : ∃ rs, tableRows s n id = .ok rs := by
  obtain ⟨t, -, ht, -⟩ := hc.tables id hid
  obtain ⟨rs, hrs⟩ : ∃ rs, t.columns.mapM (fieldRow s n) = .ok rs := by
    apply mapM_isOk.2
    intro f hf
    rw [← tableAt_eq ht] at hf
    exact hc.exists_fieldRow (mem_selected_of_column hid hf)
  simp only [tableRows, bind_eq_ok, writtenTable_eq_ok]
  exact ⟨rs, t, ht, hrs⟩

theorem exists_numbered : ∃ file, numbered s n selection = .ok file := by
  obtain ⟨blocks, hblocks⟩ : ∃ blocks, selection.mapM (tableBlock s n) = .ok blocks :=
    mapM_isOk.2 fun id hid => hc.exists_tableBlock hid
  obtain ⟨rows, hrows⟩ : ∃ rows, selection.mapM (tableRows s n) = .ok rows :=
    mapM_isOk.2 fun id hid => hc.exists_tableRows hid
  simp only [numbered, bind_eq_ok, pure_eq_ok]
  exact ⟨_, blocks, hblocks, rows, hrows, rfl⟩

end Complete

/-! ### Files -/

theorem complete_ofSelection (hl : Layout s) (h : Numbers.ofSelection s selection = .ok n) :
    Complete s selection n := by
  have hj := judged_ofSelection hl selection
  exact (hj.of_eq_ok h).complete hl ((offences_eq_nil_iff hl).1 (hj.exists_ok_iff.1 ⟨n, h⟩))

/-- Nothing but the first offence keeps a selection from being written. -/
theorem judged_ofSchema (hl : Layout s) (selection : List TableId) :
    Judged (offences s selection) (fun _ => True) (ofSchema s selection).outcome := by
  unfold ofSchema
  apply (judged_ofSelection hl selection).carry
  · intro e he
    rw [he]
  · intro n hn _
    obtain ⟨file, hfile⟩ := (complete_ofSelection hl hn).exists_numbered
    rw [hn]
    exact ⟨file, hfile, trivial⟩

theorem representable_of_ofSchema (hl : Layout s) {file : SaveFile}
    (h : (ofSchema s selection).outcome = .ok file) : Representable s selection :=
  (offences_eq_nil_iff hl).1 ((judged_ofSchema hl selection).exists_ok_iff.1 ⟨file, h⟩)

/-- A selection of distinct tables has its one file exactly if all in it can be represented. -/
theorem ofSchema_eq_ok_iff (hl : Layout s) (hs : selection.Nodup) {file : SaveFile} :
    (ofSchema s selection).outcome = .ok file ↔
      file = written s selection ∧ Representable s selection := by
  constructor
  · exact ofSchema_written hl hs
  · rintro ⟨rfl, hr⟩
    obtain ⟨file, hfile⟩ :=
      (judged_ofSchema hl selection).exists_ok_iff.2 ((offences_eq_nil_iff hl).2 hr)
    rw [hfile, (ofSchema_written hl hs hfile).1]

end Schemata.SaveFile
