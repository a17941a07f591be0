import Schemata.Proofs.Ddl.Legible
import Schemata.Proofs.Ddl.Order
import Schemata.Proofs.Lists

/-!
# What a script tells

The outline of a table is what its definition says of every column. Two schemata in words that are
written as the same script have the same outlines: neither ids are part of an outline nor the length
of a column whose type has none.
-/
namespace Schemata.Ddl
open Schema
variable {s s' : Schema} {id : TableId} {selection : List TableId}

structure ColumnOutline where
  name : String
  type : DataType
  /-- In characters, of a type that has one. -/
  length : Option UInt32
  notNull : Bool
  autoIncrement : Bool
  primaryKey : Bool
  /-- The table that it references, and the column of it. -/
  reference : Option (String × String)
deriving DecidableEq

structure TableOutline where
  name : String
  columns : List ColumnOutline
deriving DecidableEq

def columnOutline (s : Schema) (f : FieldId) : ColumnOutline where
  name := (s.fieldAt f).name
  type := (s.fieldAt f).dataType
  length := if (s.fieldAt f).dataType.hasLength then some (s.fieldAt f).length else none
  notNull := !(s.fieldAt f).allowNull
  autoIncrement := (s.fieldAt f).autoIncrement
  primaryKey := (s.fieldAt f).primaryKey
  reference := (s.fieldAt f).foreign.map fun g =>
    ((s.tableAt (s.fieldAt g).table).name, (s.fieldAt g).name)

def outline (s : Schema) (id : TableId) : TableOutline where
  name := (s.tableAt id).name
  columns := (s.tableAt id).columns.map (columnOutline s)

/-! ### Outlines of definitions -/

/-- A column without a length that its text does not tell. -/
def Column.shown (c : Column) : Column :=
  { c with length := if c.type.hasLength then c.length else 0 }

theorem columnText_shown (c : Column) : columnText c.shown = columnText c := by
  have htype : typeText c.shown = typeText c := by
    unfold typeText Column.shown
    split <;> rfl
  unfold columnText
  rw [htype]
  rfl

namespace CreateTable

def shown (t : CreateTable) : CreateTable := { t with columns := t.columns.map .shown }

/-- A definition tells the keys and the references of a column by its name. -/
def columnOutline (t : CreateTable) (c : Column) : ColumnOutline where
  name := c.name
  type := c.type
  length := if c.type.hasLength then some c.length else none
  notNull := c.notNull
  autoIncrement := c.autoIncrement
  primaryKey := t.primaryKey.contains c.name
  reference := (t.foreignKeys.find? (·.column == c.name)).map fun k => (k.table, k.target)

def outline (t : CreateTable) : TableOutline where
  name := t.name
  columns := t.columns.map t.columnOutline

theorem outline_shown (t : CreateTable) : t.shown.outline = t.outline := by
  have hcolumn (c : Column) : t.shown.columnOutline c.shown = t.columnOutline c := by
    unfold columnOutline Column.shown
    cases c.type.hasLength <;> rfl
  unfold outline
  rw [shown, List.map_map]
  exact congrArg (TableOutline.mk t.name) (List.map_congr_left fun c _ => hcolumn c)

theorem tableText_shown (t : CreateTable) : tableText t.shown = tableText t := by
  have hcolumns : t.shown.columns.map columnText = t.columns.map columnText := by
    rw [shown, List.map_map]
    exact List.map_congr_left fun c _ => columnText_shown c
  unfold tableText
  rw [hcolumns]
  rfl

end CreateTable

section Reachable
variable (hs : Reachable s)
include hs

theorem nodup_columnNames (id : TableId) :
    ((s.tableAt id).columns.map fun f => (s.fieldAt f).name).Nodup := by
  have hl := layout_invariant.holds hs
  apply (hl.nodup_columnsAt id).map_on
  intro f hf g hg hname
  obtain ⟨a, ha, hat⟩ := hl.mem_columnsAt.1 hf
  obtain ⟨b, hb, hbt⟩ := hl.mem_columnsAt.1 hg
  rw [fieldAt_eq ha, fieldAt_eq hb] at hname
  exact hl.eq_of_name ha hb (hat.trans hbt.symm) hname

theorem primaryKey_contains_iff {f : FieldId} (hf : f ∈ (s.tableAt id).columns) :
    (definition s id).primaryKey.contains (s.fieldAt f).name = (s.fieldAt f).primaryKey := by
  rw [Bool.eq_iff_iff, List.contains_iff_mem]
  simp only [definition, List.mem_map, List.mem_filter]
  constructor
  · rintro ⟨g, ⟨hg, hkey⟩, hname⟩
    cases eq_of_key_eq (nodup_columnNames hs id) hg hf hname
    exact hkey
  · exact fun hkey => ⟨f, ⟨hf, hkey⟩, rfl⟩

theorem find?_foreignKeys {f : FieldId} (hf : f ∈ (s.tableAt id).columns) :
    ((definition s id).foreignKeys.find? (·.column == (s.fieldAt f).name)).map
      (fun k => (k.table, k.target)) = (columnOutline s f).reference := by
  -- neither the number of a reference nor its column is part of what is found
  have hfound : (definition s id).foreignKeys.find? (·.column == (s.fieldAt f).name) =
      (((references s id).zipIdx 1).find? fun x =>
        (s.fieldAt x.1.1).name == (s.fieldAt f).name).map fun x =>
          foreignKeyOf s x.2 x.1.1 x.1.2 := List.find?_map ..
  have hplain : (references s id).find? (fun p => (s.fieldAt p.1).name == (s.fieldAt f).name) =
      (((references s id).zipIdx 1).find? fun x =>
        (s.fieldAt x.1.1).name == (s.fieldAt f).name).map Prod.fst := by
    conv_lhs => rw [← List.zipIdx_map_fst 1 (references s id)]
    exact List.find?_map ..
  have hreference : (references s id).find? (fun p => (s.fieldAt p.1).name == (s.fieldAt f).name) =
      (s.fieldAt f).foreign.map (f, ·) := by
    rw [← List.head?_filter, references, List.filterMap_eq_flatMap_toList,
      filter_flatMap_key (nodup_columnNames hs id) ?_ hf, Option.head?_toList]
    intro g _ p hp
    obtain ⟨_, _, rfl⟩ := Option.map_eq_some_iff.1 (Option.mem_toList.1 hp)
    rfl
  calc ((definition s id).foreignKeys.find? (·.column == (s.fieldAt f).name)).map
        (fun k => (k.table, k.target))
      = (((references s id).zipIdx 1).find? fun x =>
          (s.fieldAt x.1.1).name == (s.fieldAt f).name).map fun x =>
            ((s.tableAt (s.fieldAt x.1.2).table).name, (s.fieldAt x.1.2).name) := by
        rw [hfound, Option.map_map]
        rfl
    _ = ((references s id).find? fun p => (s.fieldAt p.1).name == (s.fieldAt f).name).map fun p =>
          ((s.tableAt (s.fieldAt p.2).table).name, (s.fieldAt p.2).name) := by
        rw [hplain, Option.map_map]
        rfl
    _ = (columnOutline s f).reference := by
        rw [hreference, Option.map_map]
        rfl

theorem outline_definition (id : TableId) : (definition s id).outline = outline s id := by
  have hcolumn : ∀ f ∈ (s.tableAt id).columns,
      (definition s id).columnOutline (.ofField (s.fieldAt f)) = columnOutline s f := by
    intro f hf
    unfold CreateTable.columnOutline
    simp only [Column.ofField, primaryKey_contains_iff hs hf, find?_foreignKeys hs hf]
    rfl
  unfold CreateTable.outline outline
  congr 1
  rw [← List.map_congr_left hcolumn, definition, List.map_map]
  rfl

end Reachable

/-! ### Schemata in words -/

/-- All names are words, and no column has a default. -/
structure InWords (s : Schema) : Prop where
  tables : ∀ t ∈ s.tables, IsWord t.name
  fields : ∀ a ∈ s.fields, IsWord a.name
  defaults : ∀ a ∈ s.fields, a.default = ""

instance (s : Schema) : Decidable (InWords s) :=
  decidable_of_iff ((∀ t ∈ s.tables, IsWord t.name) ∧ (∀ a ∈ s.fields, IsWord a.name) ∧
      ∀ a ∈ s.fields, a.default = "")
    ⟨fun ⟨htables, hfields, hdefaults⟩ => ⟨htables, hfields, hdefaults⟩,
      fun h => ⟨h.tables, h.fields, h.defaults⟩⟩

section InWords
variable (hs : Reachable s) (hw : InWords s)
include hs hw

theorem exists_column_inWords {f : FieldId} (hf : f ∈ (s.tableAt id).columns) :
    IsWord (s.fieldAt f).name ∧ (s.fieldAt f).default = "" := by
  obtain ⟨a, ha, -⟩ := (layout_invariant.holds hs).mem_columnsAt.1 hf
  rw [fieldAt_eq ha]
  have hmem : a ∈ s.fields := List.mem_of_getElem? ha
  exact ⟨hw.fields a hmem, hw.defaults a hmem⟩

theorem plain_foreignKey {k : ForeignKey} (hk : k ∈ (definition s id).foreignKeys) : k.Plain := by
  obtain ⟨⟨p, number⟩, hp, rfl⟩ := List.mem_map.1 hk
  obtain ⟨a, b, u, ha, -, -, hb, hu⟩ := exists_of_mem_references hs (List.fst_mem_of_mem_zipIdx hp)
  constructor
  · simpa only [foreignKeyOf, fieldAt_eq ha] using hw.fields a (List.mem_of_getElem? ha)
  · simpa only [foreignKeyOf, fieldAt_eq hb, tableAt_eq hu] using
      hw.tables u (List.mem_of_getElem? hu)
  · simpa only [foreignKeyOf, fieldAt_eq hb] using hw.fields b (List.mem_of_getElem? hb)

theorem plain_definition {t : Table} (ht : s.table? id = some t) :
    (definition s id).shown.Plain where
  name := by
    rw [CreateTable.shown, definition, tableAt_eq ht]
    exact hw.tables t (List.mem_of_getElem? ht)
  columns := by
    intro c hc
    rw [CreateTable.shown, definition, List.map_map] at hc
    obtain ⟨f, hf, rfl⟩ := List.mem_map.1 hc
    obtain ⟨hname, hdefault⟩ := exists_column_inWords hs hw hf
    refine ⟨hname, fun h => if_neg (Bool.not_eq_true _ ▸ h), ?_⟩
    simp [Column.shown, Column.ofField, hdefault, defaultText]
  primaryKey := by
    intro name hname
    obtain ⟨f, hf, rfl⟩ := List.mem_map.1 hname
    exact (exists_column_inWords hs hw (List.mem_of_mem_filter hf)).1
  foreignKeys := fun k hk => plain_foreignKey hs hw hk
  founded := fun h => founded_definition s id (List.map_eq_nil_iff.1 h)

end InWords

/-! ### Scripts -/

def Script.shown (script : Script) : Script :=
  { script with tables := script.tables.map .shown }

theorem scriptText_shown (script : Script) : scriptText script.shown = scriptText script := by
  have htables : script.shown.tables.map tableText = script.tables.map tableText := by
    rw [Script.shown, List.map_map]
    exact List.map_congr_left fun t _ => t.tableText_shown
  unfold scriptText
  rw [htables]
  rfl

theorem plain_script (hs : Reachable s) (hw : InWords s) {database : String}
    (hdatabase : IsWord database) (hselection : ∀ id ∈ selection, id ∈ s.tableIds) :
    (Script.mk database (selection.map (definition s))).shown.Plain where
  database := hdatabase
  tables := by
    intro t ht
    rw [Script.shown, List.map_map] at ht
    obtain ⟨id, hid, rfl⟩ := List.mem_map.1 ht
    obtain ⟨u, hu⟩ := mem_tableIds.1 (hselection id hid)
    exact plain_definition hs hw hu

theorem outlines_shown (hs : Reachable s) (database : String) (selection : List TableId) :
    (Script.mk database (selection.map (definition s))).shown.tables.map CreateTable.outline =
      selection.map (outline s) := by
  rw [Script.shown, List.map_map, List.map_map]
  apply List.map_congr_left
  intro id _
  rw [Function.comp_apply, Function.comp_apply, CreateTable.outline_shown, outline_definition hs]

/-- Two histories that lead to schemata in words, and databases with words for names: if all tables
of either schema are written as the same script, then the databases have one name, and so have the
tables, one after the other, with all that is said of their columns. -/
theorem outlines_eq_of_writeSchema_eq (ops ops' : List Operation) (database database' : String)
    (hw : InWords (ofHistory ops)) (hw' : InWords (ofHistory ops')) (hd : IsWord database)
    (hd' : IsWord database')
    (h : writeSchema (ofHistory ops) (ofHistory ops).tableIds (some database) =
      writeSchema (ofHistory ops') (ofHistory ops').tableIds (some database')) :
    (∃ text, writeSchema (ofHistory ops) (ofHistory ops).tableIds (some database) = .ok text) ∧
      database = database' ∧
      (creationOrder (ofHistory ops) (ofHistory ops).tableIds).map (outline (ofHistory ops)) =
        (creationOrder (ofHistory ops') (ofHistory ops').tableIds).map
          (outline (ofHistory ops')) := by
  have hs : Reachable (ofHistory ops) := ⟨ops, rfl⟩
  have hs' : Reachable (ofHistory ops') := ⟨ops', rfl⟩
  generalize ofHistory ops = s at *
  generalize ofHistory ops' = s' at *
  have hplain {s : Schema} (hs : Reachable s) (hw : InWords s) {database : String}
      (hd : IsWord database) := plain_script hs hw hd
    fun id (hid : id ∈ creationOrder s s.tableIds) => mem_creationOrder.1 hid
  have hwritten {s : Schema} (hs : Reachable s) (database : String) :=
    writeSchema_eq_ok hs (fun id (hid : id ∈ s.tableIds) => hid) database
  refine ⟨⟨_, hwritten hs database⟩, ?_⟩
  rw [hwritten hs, hwritten hs', Except.ok.injEq] at h
  have hscript := scriptText_inj (hplain hs hw hd) (hplain hs' hw' hd')
    (by rw [scriptText_shown, scriptText_shown, h])
  refine ⟨congrArg Script.database hscript, ?_⟩
  rw [← outlines_shown hs database, hscript, outlines_shown hs']

/-- One of the columns is called like what a constraint starts with. -/
def timetable : List Operation :=
  [.addTable "Room", .addField ⟨0⟩ "no", .updateField ⟨0⟩ [.dataType .integer, .primaryKey true],
    .addTable "Course", .addField ⟨1⟩ "CONSTRAINT", .addField ⟨1⟩ "room",
    .updateField ⟨2⟩ [.dataType .integer], .addRelated ⟨1⟩ ⟨0⟩, .bind ⟨2⟩ ⟨0⟩]

/-- Made in another order, and with a length that no script tells. -/
def timetableAgain : List Operation :=
  [.addTable "Room", .addTable "Course", .addField ⟨1⟩ "room", .addField ⟨1⟩ "CONSTRAINT",
    .addField ⟨0⟩ "no", .moveUp ⟨1⟩, .updateField ⟨0⟩ [.dataType .integer, .length 5],
    .updateField ⟨2⟩ [.dataType .integer, .primaryKey true], .addRelated ⟨1⟩ ⟨0⟩, .bind ⟨0⟩ ⟨2⟩]

theorem outlines_timetable :
    InWords (ofHistory timetable) ∧ InWords (ofHistory timetableAgain) ∧ IsWord "school" ∧
      writeSchema (ofHistory timetable) (ofHistory timetable).tableIds (some "school") =
        writeSchema (ofHistory timetableAgain) (ofHistory timetableAgain).tableIds
          (some "school") ∧
      (creationOrder (ofHistory timetable) (ofHistory timetable).tableIds).map
          (outline (ofHistory timetable)) =
        (creationOrder (ofHistory timetableAgain) (ofHistory timetableAgain).tableIds).map
          (outline (ofHistory timetableAgain)) := by
  have hw : InWords (ofHistory timetable) := by decide
  have hw' : InWords (ofHistory timetableAgain) := by decide
  have hd : IsWord "school" := by decide
  have horder : creationOrder (ofHistory timetable) (ofHistory timetable).tableIds =
      [⟨0⟩, ⟨1⟩] := creationOrder_eq_self (by decide)
  have horderAgain : creationOrder (ofHistory timetableAgain)
      (ofHistory timetableAgain).tableIds = [⟨0⟩, ⟨1⟩] := creationOrder_eq_self (by decide)
  have hshown :
      (Script.mk "school" ([⟨0⟩, ⟨1⟩].map (definition (ofHistory timetable)))).shown =
        (Script.mk "school" ([⟨0⟩, ⟨1⟩].map (definition (ofHistory timetableAgain)))).shown := by
    decide +kernel
  have hsame : writeSchema (ofHistory timetable) (ofHistory timetable).tableIds (some "school") =
      writeSchema (ofHistory timetableAgain) (ofHistory timetableAgain).tableIds
        (some "school") := by
    rw [writeSchema_eq_ok ⟨timetable, rfl⟩ fun _ hid => hid,
      writeSchema_eq_ok ⟨timetableAgain, rfl⟩ fun _ hid => hid, horder, horderAgain,
      ← scriptText_shown, hshown, scriptText_shown]
  exact ⟨hw, hw', hd, hsame, (outlines_eq_of_writeSchema_eq timetable timetableAgain "school"
    "school" hw hw' hd hd hsame).2.2⟩

end Schemata.Ddl
