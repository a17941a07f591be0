import Schemata.Proofs.SaveFile.FieldLines
import Schemata.Proofs.SaveFile.RoundTrip

/-!
# The numbers in a written file

Blocks and rows share the numbers from one on, each block right before its rows. A reference is
written twice, in the block of its field and in the row of its field, and a third place lists the
table that it leads to; all three are numbered alike.
-/
namespace Schemata.SaveFile
open Schema Text
variable {s : Schema} {selection : List TableId} {file : SaveFile}

/-- What the block of a table says of one of its rows: the referenced field, or zero. -/
def Announces (m : Nat) (r : Row) : Prop :=
  (m = 0 ↔ r.foreign = none) ∧ ∀ ref, r.foreign = some ref → m = ref.field

/-- The numbers in a file of the selected tables. -/
structure Sequential (s : Schema) (selection : List TableId) (file : SaveFile) : Prop where
  /-- The header of each block and then its fields count up from one. -/
  sequence : (file.blocks.flatMap fun b => b.id :: b.native) =
    List.range' 1 (file.blocks.length + file.rows.length)
  /-- Each of these numbers is that of one header or of one row. -/
  once : (file.blocks.map Block.id ++ file.rows.map Row.id).Perm
    (List.range' 1 (file.blocks.length + file.rows.length))
  /-- Blocks come in the order of the selection, and list the rows of their columns in order. -/
  columns : List.Forall₂ (fun id b => ∃ t, s.table? id = some t ∧ b.name = t.name ∧
    List.Forall₂ (fun f n => ∃ a, s.field? f = some a ∧
      ∃ r ∈ file.rows, r.id = n ∧ r.table = b.id ∧ r.name = a.name) t.columns b.native)
    selection file.blocks
  /-- No row is left out of the list of its block. -/
  native : ∀ b ∈ file.blocks, b.native = (file.rows.filter fun r => r.table == b.id).map Row.id
  relatedFields : ∀ b ∈ file.blocks,
    List.Forall₂ (fun n m => ∃ r ∈ file.rows, r.id = n ∧ Announces m r) b.native b.relatedFields
  /-- The table of a referenced field is the one whose block lists the field. -/
  targets : ∀ r ∈ file.rows, ∀ ref, r.foreign = some ref →
    (∃ b ∈ file.blocks, ref.field ∈ b.native) ∧
      ∀ b ∈ file.blocks, ref.field ∈ b.native → b.id = ref.table
  relations : ∀ r ∈ file.rows, ∀ ref, r.foreign = some ref →
    ∀ b ∈ file.blocks, r.id ∈ b.native → ref.table ∈ b.related

/-! ### Sequences -/

theorem map_numberAt {cs : List Cell} (h : cs.Nodup) :
    cs.map (numberAt cs) = List.range' 1 cs.length := by
  apply List.ext_getElem
  · simp
  · intro i hi _
    rw [List.length_map] at hi
    rw [List.getElem_map, List.getElem_range', numberAt, h.idxOf_getElem i hi]
    omega

/-- Read block by block, the numbers of a written file are those of its cells. -/
theorem sequence_written (hl : Layout s) (hs : selection.Nodup) :
    ((written s selection).blocks.flatMap fun b => b.id :: b.native) =
      List.range' 1 ((written s selection).blocks.length + (written s selection).rows.length) := by
  have hcells : ((written s selection).blocks.flatMap fun b => b.id :: b.native) =
      (cells s selection).map (numberAt (cells s selection)) := by
    rw [written, List.flatMap_map, cells, List.map_flatMap]
    apply List.flatMap_congr
    intro id _
    rw [List.map_cons, List.map_map]
    rfl
  rw [hcells, map_numberAt (nodup_cells hl hs), length_cells, written, List.length_map,
    List.length_map]

theorem rowIds_written (s : Schema) (selection : List TableId) :
    (written s selection).rows.map Row.id = (written s selection).blocks.flatMap Block.native := by
  rw [written, selected, List.map_map, List.map_flatMap, List.flatMap_map]
  rfl

/-! ### Blocks and their rows -/

theorem columns_of_written (hl : Layout s) (hr : Representable s selection) :
    List.Forall₂ (fun id b => ∃ t, s.table? id = some t ∧ b.name = t.name ∧
      List.Forall₂ (fun f n => ∃ a, s.field? f = some a ∧ ∃ r ∈ (written s selection).rows,
        r.id = n ∧ r.table = b.id ∧ r.name = a.name) t.columns b.native)
      selection (written s selection).blocks := by
  rw [written, List.forall₂_map_right_iff, List.forall₂_same]
  intro id hid
  obtain ⟨t, ht, -⟩ := hr.tables id hid
  refine ⟨t, ht, congrArg Table.name (tableAt_eq ht), ?_⟩
  rw [blockOf, tableAt_eq ht, List.forall₂_map_right_iff, List.forall₂_same]
  intro f hf
  obtain ⟨a, ha, hat⟩ := (hl.mem_columns ht f).1 hf
  have hcolumn : f ∈ (s.tableAt id).columns := (tableAt_eq ht).symm ▸ hf
  refine ⟨a, ha, rowOf s selection f,
    List.mem_map_of_mem (mem_selected_of_column hid hcolumn), rfl, ?_, ?_⟩
  · simp [rowOf, fieldAt_eq ha, hat]
  · simp [rowOf, fieldAt_eq ha]

/-- The rows of a table are those that its block lists. -/
theorem native_written (hl : Layout s) (hc : Consistent (written s selection)) {b : Block}
    (hb : b ∈ (written s selection).blocks) :
    b.native = ((written s selection).rows.filter fun r => r.table == b.id).map Row.id := by
  have hrows := hc.filter_placedRows hb
  rw [placedRows_written hl hc] at hrows
  obtain ⟨id, hid, rfl⟩ := List.mem_map.1 hb
  rw [hrows, ownRows_written hl hc hid, List.map_map]
  rfl

theorem announces_rowOf (f : FieldId) :
    Announces (((keptReference s selection f).map (fieldNumber s selection)).getD 0)
      (rowOf s selection f) := by
  unfold rowOf Announces
  cases keptReference s selection f with
  | none => exact ⟨by simp, by simp⟩
  | some g => exact ⟨by simp [fieldNumber, numberAt], by simp⟩

theorem relatedFields_written {b : Block} (hb : b ∈ (written s selection).blocks) :
    List.Forall₂ (fun n m => ∃ r ∈ (written s selection).rows, r.id = n ∧ Announces m r)
      b.native b.relatedFields := by
  obtain ⟨id, hid, rfl⟩ := List.mem_map.1 hb
  rw [blockOf, List.forall₂_map_left_iff, List.forall₂_map_right_iff, List.forall₂_same]
  intro f hf
  exact ⟨rowOf s selection f, List.mem_map_of_mem (mem_selected_of_column hid hf), rfl,
    announces_rowOf f⟩

/-! ### References -/

/-- A number in the list of a block is that of a column of the block's table. -/
theorem table_of_native (hl : Layout s) {f : FieldId} {a : Field} (ha : s.field? f = some a)
    (hf : f ∈ s.selected selection) {id : TableId}
    (hn : fieldNumber s selection f ∈ (blockOf s selection id).native) : a.table = id := by
  obtain ⟨g, hg, he⟩ := List.mem_map.1 hn
  cases fieldNumber_inj hf he.symm
  obtain ⟨b, hb, hbt⟩ := hl.mem_columnsAt.1 hg
  cases ha.symm.trans hb
  exact hbt

theorem targets_written (hl : Layout s) {r : Row} (hr : r ∈ (written s selection).rows)
    {ref : Reference} (href : r.foreign = some ref) :
    (∃ b ∈ (written s selection).blocks, ref.field ∈ b.native) ∧
      ∀ b ∈ (written s selection).blocks, ref.field ∈ b.native → b.id = ref.table := by
  obtain ⟨f, -, rfl⟩ := List.mem_map.1 hr
  obtain ⟨g, hg, rfl⟩ := Option.map_eq_some_iff.1 href
  have hselected := mem_selected_of_kept hg
  obtain ⟨a, ha, hat⟩ := hl.mem_selected.1 hselected
  constructor
  · refine ⟨blockOf s selection a.table, List.mem_map_of_mem hat, List.mem_map_of_mem ?_⟩
    exact hl.mem_columnsAt.2 ⟨a, ha, rfl⟩
  · intro b hb hn
    obtain ⟨id, -, rfl⟩ := List.mem_map.1 hb
    rw [fieldAt_eq ha, table_of_native hl ha hselected hn]
    rfl

/-- References lead into related tables, so these are listed. -/
theorem mem_related_written (hl : Layout s) (href : References s) (hr : Representable s selection)
    {b : Block} (hb : b ∈ (written s selection).blocks) {n : Nat}
    (hn : n ∈ referenced (written s selection).rows b.id) : n ∈ b.related := by
  obtain ⟨id, hid, rfl⟩ := List.mem_map.1 hb
  obtain ⟨t, ht, -⟩ := hr.tables id hid
  obtain ⟨other, hother, hselected, rfl⟩ := mem_related_of_referenced hl href ht hn
  rw [blockOf, tableAt_eq ht]
  exact List.mem_map_of_mem (List.mem_filter.2 ⟨hother, decide_eq_true hselected⟩)

theorem relations_written (hl : Layout s) (href : References s) (hr : Representable s selection)
    {r : Row} (hrow : r ∈ (written s selection).rows) {ref : Reference}
    (hforeign : r.foreign = some ref) {b : Block} (hb : b ∈ (written s selection).blocks)
    (hn : r.id ∈ b.native) : ref.table ∈ b.related := by
  apply mem_related_written hl href hr hb
  obtain ⟨f, hf, rfl⟩ := List.mem_map.1 hrow
  obtain ⟨id, -, rfl⟩ := List.mem_map.1 hb
  obtain ⟨a, ha, -⟩ := hl.mem_selected.1 hf
  have htable : (rowOf s selection f).table = tableNumber s selection id := by
    rw [rowOf, fieldAt_eq ha, table_of_native hl ha hf hn]
  refine List.mem_filterMap.2 ⟨_, List.mem_filter.2 ⟨hrow, beq_iff_eq.2 htable⟩, ?_⟩
  rw [hforeign, Option.map_some]

/-! ### Files -/

theorem sequential_written (hl : Layout s) (href : References s) (hs : selection.Nodup)
    (hr : Representable s selection) : Sequential s selection (written s selection) where
  sequence := sequence_written hl hs
  once := by
    rw [rowIds_written, ← sequence_written hl hs]
    exact List.map_append_flatMap_perm _ _ _
  columns := columns_of_written hl hr
  native _ hb := native_written hl (consistent_written hl hs hr) hb
  relatedFields _ hb := relatedFields_written hb
  targets _ hrow _ hforeign := targets_written hl hrow hforeign
  relations _ hrow _ hforeign _ hb := relations_written hl href hr hrow hforeign hb

/-- Whatever file is written of distinct tables, its numbers are in sequence and agree. -/
theorem writeSchema_sequential (ops : List Operation) {selection : List TableId}
    (hs : selection.Nodup) {text : String}
    (h : (writeSchema (ofHistory ops) selection).outcome = .ok text) :
    ∃ file, (ofSchema (ofHistory ops) selection).outcome = .ok file ∧ text = file.render ∧
      Sequential (ofHistory ops) selection file := by
  obtain ⟨file, hfile, rfl⟩ := writeSchema_eq_ok.1 h
  have hl := layout_invariant.ofHistory ops
  obtain ⟨rfl, hr⟩ := ofSchema_written hl hs hfile
  exact ⟨_, hfile, rfl, sequential_written hl (references_invariant.ofHistory ops) hs hr⟩

/-- A person has a boss, who is a person, and a team; a team has an office. -/
def staff : List Operation :=
  [.addTable "Person", .addTable "Team", .addTable "Office",
    .addField ⟨0⟩ "id", .updateField ⟨0⟩ [.autoIncrement true, .primaryKey true],
    .addField ⟨0⟩ "boss", .updateField ⟨1⟩ [.dataType .integer],
    .addField ⟨1⟩ "code", .updateField ⟨2⟩ [.default "a|b ", .allowNull false],
    .addField ⟨0⟩ "team", .addField ⟨2⟩ "room", .addField ⟨1⟩ "office",
    .addRelated ⟨0⟩ ⟨1⟩, .addRelated ⟨0⟩ ⟨0⟩, .addRelated ⟨1⟩ ⟨2⟩,
    .bind ⟨1⟩ ⟨0⟩, .bind ⟨3⟩ ⟨2⟩, .bind ⟨5⟩ ⟨4⟩]

/-- The fields of the teams and then those of the persons; the offices are left out. -/
def staffRows : List Line :=
  ["2|code|1|null|null|0|1|false|true|a|b ", "3|office|1|null|null|0|1|false|false|",
    "5|id|4|null|null|3|1|true|false|", "6|boss|4|5|4|3|1|false|false|",
    "7|team|4|2|1|0|1|false|false|"].map String.toList

def staffLines : List Line :=
  ["EdgeConvert Save File", "#Tables#",
    "Table: 1", "\x7b", "TableName: Team", "NativeFields: 2|3", "RelatedTables: ",
    "RelatedFields: 0|0", "\x7d",
    "Table: 4", "\x7b", "TableName: Person", "NativeFields: 5|6|7", "RelatedTables: 1|4",
    "RelatedFields: 0|5|2", "\x7d",
    "#Fields#"].map String.toList ++ staffRows

def staffText : String := String.ofList (unlines staffLines)

theorem fieldLines_staffText : fieldLines staffText = staffRows := by
  have hlines : ∀ l ∈ staffLines, IsLine l := by
    unfold IsLine
    decide +kernel
  rw [fieldLines, staffText, String.toList_ofList, lines_unlines hlines]
  decide +kernel

theorem outcome_staff : (writeSchema (ofHistory staff) [⟨1⟩, ⟨0⟩]).outcome = .ok staffText := by
  set_option maxRecDepth 10000 in rfl

theorem staff_sequential : [(⟨1⟩ : TableId), ⟨0⟩].Nodup ∧
    (writeSchema (ofHistory staff) [⟨1⟩, ⟨0⟩]).outcome = .ok staffText ∧
    ∃ file, (ofSchema (ofHistory staff) [⟨1⟩, ⟨0⟩]).outcome = .ok file ∧
      staffText = file.render ∧ Sequential (ofHistory staff) [⟨1⟩, ⟨0⟩] file :=
  ⟨by decide, outcome_staff, writeSchema_sequential staff (by decide) outcome_staff⟩

end Schemata.SaveFile
