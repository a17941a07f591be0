import Schemata.Proofs.SaveFile.Assembled
import Schemata.Proofs.SaveFile.Reachability
import Schemata.Proofs.SaveFile.Writability
import Mathlib.Algebra.Group.Nat.Defs

/-!
# The round trip

What is written of a schema reads back as its selected part. Tables are found again at their places
in the selection, fields at their places among the columns of the selected tables.
-/
namespace Schemata.SaveFile
open Schema Outline
variable {s s' : Schema} {selection : List TableId} {id : TableId} {f : FieldId}

/-- Where a selected table is found again. -/
def tableImage (selection : List TableId) (id : TableId) : TableId := ⟨selection.idxOf id⟩

/-- Where a field of a selected table is found again. -/
def fieldImage (s : Schema) (selection : List TableId) (f : FieldId) : FieldId :=
  ⟨(s.selected selection).idxOf f⟩

/-- The image of what a field references, if the table of that field is selected. -/
def foreignImage (s : Schema) (selection : List TableId) (a : Field) : Option FieldId :=
  match a.foreign with
  | none => none
  | some g =>
    match s.field? g with
    | none => none
    | some b => if b.table ∈ selection then some (fieldImage s selection g) else none

/-- The field as it is restored; whether it counts is not kept. -/
def restoredField (s : Schema) (selection : List TableId) (a : Field) : Field :=
  { a with
    table := tableImage selection a.table
    autoIncrement := false
    foreign := foreignImage s selection a }

/-- `s'` is the selected part of `s`. -/
structure Restores (s : Schema) (selection : List TableId) (s' : Schema) : Prop where
  tableCount : s'.tables.length = selection.length
  fieldCount : s'.fields.length = (s.selected selection).length
  /-- In the order of the selection, with names, columns and relations, but without indexes. -/
  tables : ∀ (i : Nat) id, selection[i]? = some id → ∃ t t', s.table? id = some t ∧
    s'.table? ⟨i⟩ = some t' ∧ t'.name = t.name ∧
    t'.columns = t.columns.map (fieldImage s selection) ∧
    t'.related = (t.related.filter (· ∈ selection)).map (tableImage selection) ∧
    t'.indexes = ∅
  fields : ∀ f a, s.field? f = some a → a.table ∈ selection →
    s'.field? (fieldImage s selection f) = some (restoredField s selection a)
  /-- The bindings of a table say the same as its fields. -/
  bindings : ∀ f a, s.field? f = some a → a.table ∈ selection →
    ∃ t', s'.table? (tableImage selection a.table) = some t' ∧
      t'.boundTo? (fieldImage s selection f) = foreignImage s selection a

/-! ### The rows of written tables -/

theorem ownRows_written (hl : Layout s) (hc : Consistent (written s selection))
    (hid : id ∈ selection) : ownRows (written s selection).rows (blockOf s selection id) =
      (s.tableAt id).columns.map (rowOf s selection) := by
  have hrow : ∀ f ∈ (s.tableAt id).columns,
      ((written s selection).rows.find? fun r =>
        r.id == fieldNumber s selection f && r.table == (blockOf s selection id).id) =
        some (rowOf s selection f) := by
    intro f hf
    obtain ⟨a, ha, hat⟩ := hl.mem_columnsAt.1 hf
    apply (find?_row hc.rowIds).2
    refine ⟨List.mem_map_of_mem (mem_selected_of_column hid hf), rfl, ?_⟩
    simp [rowOf, blockOf, fieldAt_eq ha, hat]
  have hlisted : ((blockOf s selection id).native.filterMap fun n =>
      (written s selection).rows.find? fun r =>
        r.id == n && r.table == (blockOf s selection id).id) =
      (s.tableAt id).columns.map (rowOf s selection) := by
    rw [show (blockOf s selection id).native =
      (s.tableAt id).columns.map (fieldNumber s selection) from rfl, List.filterMap_map]
    exact (List.filterMap_congr hrow).trans (congrFun List.filterMap_eq_map _)
  have hunlisted : unlistedRows (written s selection).rows (blockOf s selection id) = [] := by
    rw [unlistedRows, List.filter_eq_nil_iff]
    intro r hr
    obtain ⟨f, hf, rfl⟩ := List.mem_map.1 hr
    obtain ⟨a, ha, hat⟩ := hl.mem_selected.1 hf
    have hcolumn : tableNumber s selection a.table = tableNumber s selection id →
        f ∈ (s.tableAt id).columns := by
      intro he
      exact hl.mem_columnsAt.2 ⟨a, ha, tableNumber_inj hat he⟩
    simp only [rowOf, blockOf, fieldAt_eq ha, Bool.and_eq_true, beq_iff_eq, Bool.not_eq_true',
      not_and, Bool.not_eq_false]
    intro he
    simp only [List.contains_iff_mem]
    exact List.mem_map_of_mem (hcolumn he)
  rw [ownRows, hlisted, hunlisted, List.append_nil]

theorem placedRows_written (hl : Layout s) (hc : Consistent (written s selection)) :
    placedRows (written s selection) = (written s selection).rows := by
  have hown : ∀ id ∈ selection, ownRows (written s selection).rows (blockOf s selection id) =
      (s.tableAt id).columns.map (rowOf s selection) := fun id hid => ownRows_written hl hc hid
  rw [placedRows, show (written s selection).blocks = selection.map (blockOf s selection) from rfl,
    List.flatMap_map, List.flatMap_congr hown, written, selected, List.map_flatMap]

/-! ### Places -/

theorem tablePlace_written (s : Schema) (selection : List TableId) (id : TableId) :
    (outline (written s selection)).tablePlace (tableNumber s selection id) =
      tableImage selection id := by
  have hids : (outline (written s selection)).blockIds =
      selection.map (tableNumber s selection) := by
    rw [blockIds, outline_blocks, written, List.map_map]
    rfl
  have hplace : (selection.map (tableNumber s selection)).idxOf (tableNumber s selection id) =
      selection.idxOf id :=
    idxOf_map_of_inj fun id' hid' h => tableNumber_inj hid' h
  rw [tablePlace, hids, hplace]
  rfl

theorem fieldPlace_written (hl : Layout s) (hc : Consistent (written s selection)) (f : FieldId) :
    (outline (written s selection)).fieldPlace (fieldNumber s selection f) =
      fieldImage s selection f := by
  have hids : (outline (written s selection)).rowIds =
      (s.selected selection).map (fieldNumber s selection) := by
    rw [rowIds, outline_rows, placedRows_written hl hc, written, List.map_map]
    rfl
  have hplace : ((s.selected selection).map (fieldNumber s selection)).idxOf
      (fieldNumber s selection f) = (s.selected selection).idxOf f :=
    idxOf_map_of_inj fun f' hf' h => fieldNumber_inj hf' h
  rw [fieldPlace, hids, hplace]
  rfl

theorem foreignImage_eq (hl : Layout s) (f : FieldId) :
    foreignImage s selection (s.fieldAt f) =
      (keptReference s selection f).map (fieldImage s selection) := by
  unfold foreignImage keptReference
  cases (s.fieldAt f).foreign with
  | none => rfl
  | some g =>
    cases hb : s.field? g with
    | none =>
      have hg : g ∉ s.selected selection := by simp [hl.mem_selected, hb]
      simp [Option.filter, hg, hb]
    | some b =>
      have hg : g ∈ s.selected selection ↔ b.table ∈ selection := by simp [hl.mem_selected, hb]
      by_cases hm : b.table ∈ selection <;> simp [Option.filter, hg, hb, hm]

/-! ### Tables and fields -/

theorem columns_written (hl : Layout s) (hc : Consistent (written s selection))
    (hid : id ∈ selection) : (outline (written s selection)).columns (tableNumber s selection id) =
      (s.tableAt id).columns.map (fieldImage s selection) := by
  have hb : blockOf s selection id ∈ (written s selection).blocks := List.mem_map_of_mem hid
  apply (columns_outline hc hb).trans
  rw [ownRows_written hl hc hid, List.map_map]
  apply List.map_congr_left
  exact fun f _ => fieldPlace_written hl hc f

/-- References lead into related tables. -/
theorem mem_related_of_referenced (hl : Layout s) (href : References s) {t : Table}
    (ht : s.table? id = some t) {n : Nat}
    (hn : n ∈ referenced (written s selection).rows (tableNumber s selection id)) :
    ∃ other ∈ t.related, other ∈ selection ∧ n = tableNumber s selection other := by
  obtain ⟨r, hr, hrn⟩ := List.mem_filterMap.1 hn
  obtain ⟨hr, hrid⟩ := List.mem_filter.1 hr
  obtain ⟨f, hf, rfl⟩ := List.mem_map.1 hr
  obtain ⟨a, ha, hat⟩ := hl.mem_selected.1 hf
  have hid : a.table = id := by
    apply tableNumber_inj (s := s) hat
    simpa [rowOf, fieldAt_eq ha] using hrid
  cases hg : keptReference s selection f with
  | none => simp [rowOf, hg] at hrn
  | some g =>
    obtain ⟨b, hb, hbt⟩ := hl.mem_selected.1 (mem_selected_of_kept hg)
    have hag : a.foreign = some g := by
      have hkept := (Option.filter_eq_some_iff.1 hg).1
      rwa [fieldAt_eq ha] at hkept
    obtain ⟨other, ⟨b', hb', rfl⟩, ⟨u, hu, hmem⟩⟩ := href f a ha g hag
    cases hb.symm.trans hb'
    cases ht.symm.trans (hid ▸ hu)
    refine ⟨b.table, hmem, hbt, ?_⟩
    simpa [rowOf, hg, fieldAt_eq hb] using hrn.symm

/-- So the rows bring no relation that is not listed. -/
theorem related_written (hl : Layout s) (hrel : Relations s) (href : References s)
    (hc : Consistent (written s selection)) {t : Table} (ht : s.table? id = some t)
    (hid : id ∈ selection) : (outline (written s selection)).related (tableNumber s selection id) =
      (t.related.filter (· ∈ selection)).map (tableImage selection) := by
  have hb : blockOf s selection id ∈ (written s selection).blocks := List.mem_map_of_mem hid
  have himage : (outline (written s selection)).tablePlace ∘ tableNumber s selection =
      tableImage selection := by
    funext other
    exact tablePlace_written s selection other
  have hlisted : (blockOf s selection id).related.map
      (outline (written s selection)).tablePlace =
      (t.related.filter (· ∈ selection)).map (tableImage selection) := by
    rw [blockOf, List.map_map, himage, tableAt_eq ht]
  have hnodup : ((t.related.filter (· ∈ selection)).map (tableImage selection)).Nodup := by
    apply ((hrel id t ht).1.filter _).map_on
    intro other hother other' _ h
    have hm : other ∈ selection := by simpa using (List.mem_filter.1 hother).2
    exact (List.idxOf_inj hm).1 (congrArg TableId.index h)
  apply (related_outline hc hb).trans
  rw [List.map_append, List.foldl_append, hlisted, foldl_enlist_of_nodup (l := []) hnodup,
    List.nil_append]
  apply foldl_enlist_of_mem
  intro place hplace
  obtain ⟨n, hn, rfl⟩ := List.mem_map.1 hplace
  obtain ⟨other, hother, hselected, rfl⟩ := mem_related_of_referenced hl href ht hn
  rw [tablePlace_written]
  exact List.mem_map_of_mem (List.mem_filter.2 ⟨hother, by simpa using hselected⟩)

theorem field_written (hl : Layout s) (hc : Consistent (written s selection)) {a : Field}
    (ha : s.field? f = some a) (hat : a.table ∈ selection) :
    (outline (written s selection)).schema.field? (fieldImage s selection f) =
      some (restoredField s selection a) := by
  have hf : f ∈ s.selected selection := hl.mem_selected.2 ⟨a, ha, hat⟩
  have hmem : rowOf s selection f ∈ (written s selection).rows := List.mem_map_of_mem hf
  have hrows : (outline (written s selection)).rows = (written s selection).rows := by
    rw [outline_rows, placedRows_written hl hc]
  have hids : (outline (written s selection)).rowIds.Nodup := by
    rw [rowIds, hrows]
    exact hc.rowIds
  have hplace : (outline (written s selection)).fieldPlace (rowOf s selection f).id =
      fieldImage s selection f := fieldPlace_written hl hc f
  have hforeign : (outline (written s selection)).foreign (rowOf s selection f).id =
      foreignImage s selection a := by
    rw [foreign_outline hc hmem, ← fieldAt_eq ha, foreignImage_eq hl, rowOf, Option.map_map]
    cases keptReference s selection f with
    | none => rfl
    | some g => exact congrArg some (fieldPlace_written hl hc g)
  rw [← hplace, field?_fieldPlace hids (hrows ▸ hmem)]
  apply congrArg some
  rw [Outline.field, hforeign]
  simp [rowOf, fieldAt_eq ha, restoredField, tablePlace_written, DataType.ofCode?_code]

theorem table_written (hl : Layout s) (hrel : Relations s) (href : References s)
    (hc : Consistent (written s selection)) {i : Nat} (hi : selection[i]? = some id) {t : Table}
    (ht : s.table? id = some t) :
    ∃ t', (outline (written s selection)).schema.table? ⟨i⟩ = some t' ∧ t'.name = t.name ∧
      t'.columns = t.columns.map (fieldImage s selection) ∧
      t'.related = (t.related.filter (· ∈ selection)).map (tableImage selection) ∧
      t'.indexes = ∅ := by
  have hid : id ∈ selection := List.mem_of_getElem? hi
  refine ⟨(outline (written s selection)).table (blockOf s selection id), ?_, ?_, ?_, ?_, rfl⟩
  · simp only [Schema.table?, schema, outline_blocks, written, List.getElem?_map, hi,
      Option.map_some]
  · change (s.tableAt id).name = t.name
    rw [tableAt_eq ht]
  · rw [← tableAt_eq ht]
    exact columns_written hl hc hid
  · exact related_written hl hrel href hc ht hid

theorem restores_written (hl : Layout s) (hrel : Relations s) (href : References s)
    (hr : Representable s selection) (hc : Consistent (written s selection)) :
    Restores s selection (outline (written s selection)).schema where
  tableCount := by simp [schema, outline_blocks, written]
  fieldCount := by
    rw [schema, List.length_map, outline_rows, placedRows_written hl hc, written, List.length_map]
  tables i id hi := by
    obtain ⟨t, ht, -⟩ := hr.tables id (List.mem_of_getElem? hi)
    obtain ⟨t', ht'⟩ := table_written hl hrel href hc hi ht
    exact ⟨t, t', ht, ht'⟩
  fields f a := field_written hl hc
  bindings f a ha hat := by
    -- what is read is reachable, so its tables are bound as its fields say
    have hreach := reachable_toSchema (toSchema_of_consistent hc)
    have hf := field_written hl hc ha hat
    obtain ⟨t', ht'⟩ := (layout_invariant.holds hreach).hasTable hf
    refine ⟨t', ht', ?_⟩
    ext g
    rw [bindings_invariant.holds hreach _ _ ht', Refers, hf]
    simp [restoredField]

theorem writeSchema_eq_ok {text : String} :
    (writeSchema s selection).outcome = .ok text ↔
      ∃ file, (ofSchema s selection).outcome = .ok file ∧ file.render = text := by
  apply outcome_bind_eq_ok.trans
  exact exists_congr fun file => and_congr_right fun _ => pure_eq_ok.trans eq_comm

/-- The selected part of a schema is restored by reading its file. -/
theorem exists_restored (hl : Layout s) (hrel : Relations s) (href : References s)
    (hs : selection.Nodup) (hsize : selection.length + (s.selected selection).length < 2 ^ 32)
    {text : String} (h : (writeSchema s selection).outcome = .ok text) :
    ∃ s', readSchema text = .ok s' ∧ Restores s selection s' := by
  obtain ⟨file, hfile, rfl⟩ := writeSchema_eq_ok.1 h
  obtain ⟨rfl, hr⟩ := ofSchema_written hl hs hfile
  have hc := consistent_written hl hs hr
  refine ⟨(outline (written s selection)).schema, ?_, restores_written hl hrel href hr hc⟩
  rw [readSchema, ofText_render (writable_ofSchema hl hsize hfile)]
  exact toSchema_of_consistent hc

/-- A file that is written of any reachable schema for distinct tables reads back as the selected
part of the schema, as long as its numbers fit. -/
theorem readSchema_writeSchema (ops : List Operation) {selection : List TableId}
    (hs : selection.Nodup)
    (hsize : selection.length + ((ofHistory ops).selected selection).length < 2 ^ 32)
    {text : String} (h : (writeSchema (ofHistory ops) selection).outcome = .ok text) :
    ∃ s', readSchema text = .ok s' ∧ Restores (ofHistory ops) selection s' :=
  exists_restored (layout_invariant.ofHistory ops) (relations_invariant.ofHistory ops)
    (references_invariant.ofHistory ops) hs hsize h

/-- Books have an author and a shop; the default of their titles has a delimiter and blanks. -/
def bookshop : List Operation :=
  [.addTable "Author", .addTable "Book", .addTable "Shop",
    .addField ⟨0⟩ "id", .updateField ⟨0⟩ [.autoIncrement true, .primaryKey true],
    .addField ⟨2⟩ "no",
    .addField ⟨1⟩ "title", .updateField ⟨2⟩ [.length 50, .allowNull false, .default " a|b "],
    .addField ⟨1⟩ "author", .addField ⟨1⟩ "shop",
    .addRelated ⟨1⟩ ⟨2⟩, .addRelated ⟨1⟩ ⟨0⟩,
    .bind ⟨3⟩ ⟨0⟩, .bind ⟨4⟩ ⟨1⟩, .moveUp ⟨3⟩]

/-- The books and then the authors; the shops are left out. -/
def bookshopText : String :=
  String.ofList (unlines (["EdgeConvert Save File", "#Tables#",
    "Table: 1", "\x7b", "TableName: Book", "NativeFields: 2|3|4", "RelatedTables: 5",
    "RelatedFields: 6|0|0", "\x7d",
    "Table: 5", "\x7b", "TableName: Author", "NativeFields: 6", "RelatedTables: ",
    "RelatedFields: 0", "\x7d",
    "#Fields#",
    "2|author|1|6|5|0|1|false|false|", "3|title|1|null|null|0|50|false|true| a|b ",
    "4|shop|1|null|null|0|1|false|false|", "6|id|5|null|null|3|1|true|false|"].map
    String.toList))

theorem bookshop_restored :
    (writeSchema (ofHistory bookshop) [⟨1⟩, ⟨0⟩]).outcome = .ok bookshopText ∧
      ∃ s', readSchema bookshopText = .ok s' ∧
        Restores (ofHistory bookshop) [⟨1⟩, ⟨0⟩] s' := by
  have hwritten : (writeSchema (ofHistory bookshop) [⟨1⟩, ⟨0⟩]).outcome = .ok bookshopText := by
    set_option maxRecDepth 10000 in rfl
  exact ⟨hwritten, readSchema_writeSchema bookshop (by decide) (by decide) hwritten⟩

end Schemata.SaveFile
