import Schemata.Proofs.Lists
import Schemata.Proofs.Model.Steps
import Schemata.SaveFile.Assembly
import Mathlib.Logic.Function.Basic

/-!
# Outlines of schemata in the making

While a file is put together, the schema at hand is determined by what has been taken from the file
so far. An outline tells it in the numbers of the file, and each step of the assembly is followed by
a step on outlines.
-/
namespace Schemata.SaveFile

structure Outline where
  blocks : List Block := []
  /-- The rows that have become fields, in the order of the fields. -/
  rows : List Row := []
  related : Nat → List TableId := fun _ => []
  bindings : Nat → Keyed FieldId FieldId := fun _ => ∅
  foreign : Nat → Option FieldId := fun _ => none

namespace Outline
variable {k : Outline} {b : Block} {r : Row}

def blockIds (k : Outline) : List Nat := k.blocks.map Block.id

def rowIds (k : Outline) : List Nat := k.rows.map Row.id

def tablePlace (k : Outline) (id : Nat) : TableId := ⟨k.blockIds.idxOf id⟩

def fieldPlace (k : Outline) (id : Nat) : FieldId := ⟨k.rowIds.idxOf id⟩

/-- The places of the rows that name a table. -/
def columns (k : Outline) (id : Nat) : List FieldId :=
  (k.rows.zipIdx.filter fun p => p.1.table == id).map fun p => ⟨p.2⟩

def table (k : Outline) (b : Block) : Table where
  name := b.name
  columns := k.columns b.id
  related := k.related b.id
  bindings := k.bindings b.id

def field (k : Outline) (r : Row) : Field where
  name := r.name
  table := k.tablePlace r.table
  dataType := (DataType.ofCode? r.typeCode).getD default
  length := r.length
  default := r.default
  allowNull := !r.notNull
  primaryKey := r.primaryKey
  foreign := k.foreign r.id

def schema (k : Outline) : Schema := ⟨k.blocks.map k.table, k.rows.map k.field⟩

def places (k : Outline) : Places :=
  ⟨withPlaces TableId.mk k.blockIds, withPlaces FieldId.mk k.rowIds⟩

def draft (k : Outline) : Draft := (k.schema, k.places)

theorem table_related : (k.table b).related = k.related b.id := rfl

theorem field_table : (k.field r).table = k.tablePlace r.table := rfl

theorem tablePlace_congr {k' : Outline} (h : k'.blocks = k.blocks) :
    k'.tablePlace = k.tablePlace := by
  funext id
  simp only [tablePlace, blockIds, h]

theorem fieldPlace_congr {k' : Outline} (h : k'.rows = k.rows) :
    k'.fieldPlace = k.fieldPlace := by
  funext id
  simp only [fieldPlace, rowIds, h]

/-! ### Look-ups -/

theorem lookup_tables (hk : k.blockIds.Nodup) {id : Nat} (h : id ∈ k.blockIds) :
    k.places.tables.lookup id = some (k.tablePlace id) :=
  (lookup_withPlaces TableId.mk hk id).trans (if_pos h)

theorem lookup_fields (hk : k.rowIds.Nodup) {id : Nat} (h : id ∈ k.rowIds) :
    k.places.fields.lookup id = some (k.fieldPlace id) :=
  (lookup_withPlaces FieldId.mk hk id).trans (if_pos h)

theorem table?_tablePlace (hk : k.blockIds.Nodup) (hb : b ∈ k.blocks) :
    k.schema.table? (k.tablePlace b.id) = some (k.table b) := by
  have hplace := getElem?_idxOf_key hk hb
  simp only [Schema.table?, schema, tablePlace, blockIds, List.getElem?_map, hplace,
    Option.map_some]

theorem field?_fieldPlace (hk : k.rowIds.Nodup) (hr : r ∈ k.rows) :
    k.schema.field? (k.fieldPlace r.id) = some (k.field r) := by
  have hplace := getElem?_idxOf_key hk hr
  simp only [Schema.field?, schema, fieldPlace, rowIds, List.getElem?_map, hplace,
    Option.map_some]

/-- Each field is that of a row, at the place of the row. -/
theorem exists_row_of_field? (hk : k.rowIds.Nodup) {f : FieldId} {a : Field}
    (ha : k.schema.field? f = some a) : ∃ r ∈ k.rows, f = k.fieldPlace r.id ∧ a = k.field r := by
  rw [Schema.field?, schema, List.getElem?_map, Option.map_eq_some_iff] at ha
  obtain ⟨r, hr, rfl⟩ := ha
  have hid : k.rowIds[f.index]? = some r.id := by
    rw [rowIds, List.getElem?_map, hr, Option.map_some]
  exact ⟨r, List.mem_of_getElem? hr, congrArg FieldId.mk (idxOf_of_getElem? hk hid).symm, rfl⟩

theorem tables_modifyTable (hk : k.blockIds.Nodup) (id : Nat) (hid : id ∈ k.blockIds)
    (f : Table → Table) :
    (k.schema.modifyTable (k.tablePlace id) f).tables =
      k.blocks.map fun b => if b.id = id then f (k.table b) else k.table b := by
  obtain ⟨b, -, rfl⟩ := List.mem_map.1 hid
  exact modify_map_key hk b k.table f

theorem fields_modifyField (hk : k.rowIds.Nodup) (r : Row) (f : Field → Field) :
    (k.schema.modifyField (k.fieldPlace r.id) f).fields =
      k.rows.map fun r' => if r'.id = r.id then f (k.field r') else k.field r' :=
  modify_map_key hk r k.field f

theorem mem_columns {id : Nat} {f : FieldId} :
    f ∈ k.columns id ↔ ∃ r, k.rows[f.index]? = some r ∧ r.table = id := by
  unfold columns
  simp only [List.mem_map, List.mem_filter, beq_iff_eq, List.mem_zipIdx_iff_getElem?]
  constructor
  · rintro ⟨p, ⟨hp, rfl⟩, rfl⟩
    exact ⟨p.1, hp, rfl⟩
  · rintro ⟨r, hr, rfl⟩
    exact ⟨(r, f.index), ⟨hr, rfl⟩, rfl⟩

/-- Where the numbers of rows are distinct, the place of a row is the place of its number. -/
theorem columns_eq (hk : k.rowIds.Nodup) (id : Nat) : k.columns id =
    (k.rows.filter fun r => r.table == id).map fun r => k.fieldPlace r.id := by
  have hplace : ∀ p ∈ k.rows.zipIdx, (⟨p.2⟩ : FieldId) = k.fieldPlace p.1.id := by
    intro p hp
    have hi : k.rowIds[p.2]? = some p.1.id := by
      rw [rowIds, List.getElem?_map, List.mem_zipIdx_iff_getElem?.1 hp, Option.map_some]
    exact congrArg FieldId.mk (idxOf_of_getElem? hk hi).symm
  rw [columns, List.map_congr_left fun p hp => hplace p (List.mem_of_mem_filter hp)]
  conv_rhs => rw [← List.zipIdx_map_fst 0 k.rows, List.filter_map, List.map_map]
  rfl

/-! ### Steps -/

/-- With a table related to the ones listed, in order and without repeats. -/
def withRelated (k : Outline) (id : Nat) (related : List Nat) : Outline :=
  { k with
    related := Function.update k.related id
      ((related.map k.tablePlace).foldl enlist (k.related id)) }

def withRows (k : Outline) (rs : List Row) : Outline := { k with rows := k.rows ++ rs }

/-- With a field bound to another, in its own record and in that of its table. -/
def withBound (k : Outline) (r : Row) (target : Nat) : Outline :=
  { k with
    bindings := Function.update k.bindings r.table
      ((k.bindings r.table).insert (k.fieldPlace r.id) (k.fieldPlace target))
    foreign := Function.update k.foreign r.id (some (k.fieldPlace target)) }

/-- With the reference of a row, which also relates the two tables. -/
def withReference (k : Outline) (r : Row) : Outline :=
  match r.foreign with
  | none => k
  | some ref => (k.withRelated r.table [ref.table]).withBound r ref.field

theorem withRelated_nil (id : Nat) : k.withRelated id [] = k := by
  simp [withRelated]

theorem withRelated_cons (id n : Nat) (related : List Nat) :
    k.withRelated id (n :: related) = (k.withRelated id [n]).withRelated id related := by
  simp only [withRelated, Function.update_self, Function.update_idem]
  rfl

theorem withRows_withRows (rs rs' : List Row) :
    (k.withRows rs).withRows rs' = k.withRows (rs ++ rs') := by
  simp [withRows]

theorem columns_withRows (id : Nat) : (k.withRows [r]).columns id =
    if r.table = id then k.columns id ++ [⟨k.rows.length⟩] else k.columns id := by
  unfold columns withRows
  by_cases h : r.table = id
  · simp [List.zipIdx_append, h]
  · simp [List.zipIdx_append, h]

theorem places_withRows : (k.withRows [r]).places =
    { k.places with fields := (r.id, ⟨k.rows.length⟩) :: k.places.fields } := by
  simp [places, rowIds, blockIds, withRows, withPlaces_push]

theorem table_withRows : (k.withRows [r]).table = fun b => if b.id = r.table then
    { k.table b with columns := k.columns b.id ++ [⟨k.rows.length⟩] } else k.table b := by
  funext b
  rw [table, columns_withRows]
  by_cases h : b.id = r.table
  · rw [if_pos h, if_pos h.symm]
    rfl
  · rw [if_neg h, if_neg (Ne.symm h)]
    rfl

theorem table_withRelated {id n : Nat} : (k.withRelated id [n]).table = fun b =>
    if b.id = id then { k.table b with related := enlist (k.related b.id) (k.tablePlace n) }
    else k.table b := by
  funext b
  by_cases h : b.id = id
  · simp [h, table, withRelated, columns]
  · simp [h, table, withRelated, columns]

theorem table_withBound {target : Nat} : (k.withBound r target).table = fun b =>
    if b.id = r.table then
      { k.table b with
        bindings := (k.bindings b.id).insert (k.fieldPlace r.id) (k.fieldPlace target) }
    else k.table b := by
  funext b
  by_cases h : b.id = r.table
  · simp [h, table, withBound, columns]
  · simp [h, table, withBound, columns]

theorem field_withBound {target : Nat} : (k.withBound r target).field = fun r' =>
    if r'.id = r.id then { k.field r' with foreign := some (k.fieldPlace target) }
    else k.field r' := by
  funext r'
  by_cases h : r'.id = r.id
  · simp [h, field, withBound, tablePlace, blockIds]
  · simp [h, field, withBound, tablePlace, blockIds]

theorem schema_withRelated (hk : k.blockIds.Nodup) {id n : Nat} (hid : id ∈ k.blockIds)
    (hnew : k.tablePlace n ∉ k.related id) :
    k.schema.modifyTable (k.tablePlace id) (fun t =>
      { t with related := t.related ++ [k.tablePlace n] }) = (k.withRelated id [n]).schema := by
  apply congrArg₂ Schema.mk
  · apply (tables_modifyTable hk id hid _).trans
    change _ = k.blocks.map (k.withRelated id [n]).table
    rw [table_withRelated]
    apply List.map_congr_left
    intro b _
    by_cases hb : b.id = id
    · subst hb
      rw [if_pos rfl, if_pos rfl, enlist, if_neg hnew]
      rfl
    · rw [if_neg hb, if_neg hb]
  · rfl

theorem schema_withRows (hk : k.blockIds.Nodup) (hid : r.table ∈ k.blockIds)
    (hforeign : k.foreign r.id = none) {type : DataType}
    (htype : DataType.ofCode? r.typeCode = some type) :
    (k.schema.withField (k.tablePlace r.table) r.name).modifyField ⟨k.schema.fields.length⟩
      (·.setAll (rowSettings r type)) = (k.withRows [r]).schema := by
  have hfield : Field.setAll { name := r.name, table := k.tablePlace r.table }
      (rowSettings r type) = k.field r := by
    simp [Field.setAll, rowSettings, Field.set, field, hforeign, htype]
  apply congrArg₂ Schema.mk
  · apply (tables_modifyTable hk r.table hid _).trans
    change _ = k.blocks.map (k.withRows [r]).table
    rw [table_withRows, show k.schema.fields.length = k.rows.length from List.length_map _]
    rfl
  · apply (modify_push k.schema.fields _ _).trans
    change k.rows.map k.field ++ [Field.setAll _ _] = (k.rows ++ [r]).map k.field
    rw [hfield, List.map_append, List.map_singleton]

theorem schema_withBound (hk : k.blockIds.Nodup) (hrows : k.rowIds.Nodup)
    (hid : r.table ∈ k.blockIds) (target : Nat) :
    k.schema.withBinding (k.tablePlace r.table) (k.fieldPlace r.id) (k.fieldPlace target) =
      (k.withBound r target).schema := by
  apply congrArg₂ Schema.mk
  · apply (tables_modifyTable hk r.table hid _).trans
    change _ = k.blocks.map (k.withBound r target).table
    rw [table_withBound]
    rfl
  · apply (fields_modifyField hrows r _).trans
    change _ = k.rows.map (k.withBound r target).field
    rw [field_withBound]

end Outline
end Schemata.SaveFile
