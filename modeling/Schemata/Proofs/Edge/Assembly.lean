import Schemata.Edge.Assembly
import Schemata.Proofs.Model.Relating

/-!
# Putting the tables of a diagram together

All tables are there before the first one is filled. To fill one is to relate it and then to append
one column for each attribute of its entity, which leaves the other tables as they are.
-/
namespace Schemata.Edge
open Schema
variable {d : Diagram} {l : Links} {s : Schema} {tables : Tables} {table : TableId} {e : Entity}
  {done : List Attribute} {a : Attribute}

/-! ### Tables -/

/-- A table without columns for each entity. -/
def bareSchema (entities : List Entity) : Schema where
  tables := entities.map fun e => { name := e.name }

theorem foldlM_addTable {entities : List Entity} (hnames : (entities.map (·.name)).Nodup) :
    entities.foldlM addTable ({}, []) =
      .ok (bareSchema entities, withPlaces TableId.mk (entities.map (·.id))) := by
  induction entities using List.reverseRecOn with
  | nil => rfl
  | append_singleton entities e ih =>
    rw [List.map_append, List.nodup_append] at hnames
    have hfresh : ∀ t ∈ (bareSchema entities).tables, t.name ≠ e.name := by
      rw [bareSchema, List.forall_mem_map]
      intro e' he'
      exact hnames.2.2 e'.name (List.mem_map_of_mem he') e.name List.mem_cons_self
    have hadd := accepted_eq_ok.2 (addTable_eq_ok_iff.2 ⟨hfresh, rfl⟩)
    have hstep : addTable (bareSchema entities, withPlaces TableId.mk (entities.map (·.id))) e =
        .ok (bareSchema (entities ++ [e]),
          withPlaces TableId.mk ((entities ++ [e]).map (·.id))) := by
      refine bind_eq_ok.2 ⟨_, hadd, ?_⟩
      rw [List.map_append, List.map_singleton, withPlaces_push]
      simp [bareSchema, withTable, pure, Except.pure]
    rw [List.foldlM_append, ih hnames.1]
    exact foldlM_cons_of_ok hstep []

/-! ### Relations -/

theorem foldlM_addRelated {place : Nat → TableId} {entities : List Nat} (ht : s.HasTable table)
    (h : ∀ x ∈ entities, tables.lookup x = some (place x) ∧ s.HasTable (place x)) :
    entities.foldlM (addRelated tables table) s =
      .ok (s.withRelated table (entities.map place)) := by
  induction entities generalizing s with
  | nil => rw [List.map_nil, withRelated_nil]; rfl
  | cons x entities ih =>
    obtain ⟨⟨hlookup, hx⟩, hrest⟩ := List.forall_mem_cons.1 h
    obtain ⟨c, hc, hrelated⟩ := addRelated_eq ht hx
    have hstep : addRelated tables table s x = .ok (s.withRelated table [place x]) := by
      rw [addRelated, hlookup, ← hrelated]
      exact bind_eq_ok.2 ⟨c, accepted_eq_ok.2 hc, rfl⟩
    rw [foldlM_cons_of_ok hstep, List.map_cons,
      withRelated_cons s table (place x) (entities.map place)]
    have hgrows := grows_withRelated s table [place x]
    exact ih (hgrows.hasTable ht) fun y hy => ⟨(hrest y hy).1, hgrows.hasTable (hrest y hy).2⟩

/-! ### Columns -/

/-- The column that an attribute becomes. -/
def columnOf (table : TableId) (a : Attribute) : Field where
  name := a.name
  table := table
  dataType := .varchar
  length := 1
  default := ""
  allowNull := true
  primaryKey := a.underlined
  autoIncrement := false
  foreign := none

/-- The places of some new fields, as many as there are attributes. -/
def newPlaces (s : Schema) (attributes : List Attribute) : List FieldId :=
  (List.range' s.fields.length attributes.length).map FieldId.mk

/-- With the columns of attributes at the end of a table. -/
def withColumns (s : Schema) (table : TableId) (attributes : List Attribute) : Schema where
  tables := s.tables.modify table.index fun t =>
    { t with columns := t.columns ++ newPlaces s attributes }
  fields := s.fields ++ attributes.map (columnOf table)

theorem withColumns_nil (s : Schema) (table : TableId) : withColumns s table [] = s := by
  have hsame : (fun t : Table => { t with columns := t.columns ++ newPlaces s [] }) = id := by
    funext t
    simp [newPlaces]
  rw [withColumns, hsame, List.modify_id]
  simp

theorem withColumns_push (s : Schema) (table : TableId) (done : List Attribute) (a : Attribute) :
    ((withColumns s table done).withField table a.name).modifyField
        ⟨(withColumns s table done).fields.length⟩
        (·.setAll [.dataType .varchar, .allowNull true, .primaryKey a.underlined]) =
      withColumns s table (done ++ [a]) := by
  apply congrArg₂ Schema.mk
  · apply (List.modify_modify_eq ..).trans
    congr 1
    funext t
    simp [newPlaces, withColumns, List.range'_1_concat]
  · apply (modify_push (withColumns s table done).fields _ _).trans
    simp [withColumns, columnOf, Field.setAll, Field.set]

theorem table?_withColumns (s : Schema) (table : TableId) (attributes : List Attribute)
    (id : TableId) : (withColumns s table attributes).table? id = if id = table then
      (s.table? table).map fun t => { t with columns := t.columns ++ newPlaces s attributes }
    else s.table? id :=
  table?_modifyTable table id _

/-- The new fields show the columns of the attributes, in their order. -/
theorem map_field?_newPlaces (s : Schema) (table : TableId) (attributes : List Attribute) :
    (newPlaces s attributes).map (withColumns s table attributes).field? =
      attributes.map fun a => some (columnOf table a) := by
  ext i : 1
  by_cases h : i < attributes.length
  · simp [newPlaces, field?, withColumns, h]
  · simp [newPlaces, h]

theorem field?_withColumns {f : FieldId} {b : Field} (hb : s.field? f = some b)
    (attributes : List Attribute) : (withColumns s table attributes).field? f = some b :=
  (List.getElem?_append_left (lt_of_field? hb)).trans hb

theorem judged_addColumn {t : Table} (ht : s.table? table = some t) (hbare : t.columns = []) :
    Judged (faultIf (∃ b ∈ done, b.name = a.name) (.schema (.duplicateField t.name a.name)))
      (· = withColumns s table (done ++ [a]))
      (addColumn table (withColumns s table done) a) := by
  have htable : (withColumns s table done).table? table =
      some { t with columns := newPlaces s done } := by
    rw [table?_withColumns, if_pos rfl, ht]
    simp [hbare]
  have htaken : (∃ b ∈ done, b.name = a.name) ↔ ∃ g ∈ newPlaces s done, ∃ f,
      (withColumns s table done).field? g = some f ∧ f.name = a.name := by
    have hmem (f : Field) : (∃ g ∈ newPlaces s done, (withColumns s table done).field? g = some f) ↔
        ∃ b ∈ done, columnOf table b = f := by
      rw [← List.mem_map, map_field?_newPlaces, List.mem_map]
      simp only [Option.some.injEq]
    constructor
    · rintro ⟨b, hb, hname⟩
      obtain ⟨g, hg, hf⟩ := (hmem _).2 ⟨b, hb, rfl⟩
      exact ⟨g, hg, _, hf, hname⟩
    · rintro ⟨g, hg, f, hf, hname⟩
      obtain ⟨b, hb, rfl⟩ := (hmem f).1 ⟨g, hg, hf⟩
      exact ⟨b, hb, hname⟩
  have hadd := (judged_addField htable htaken).mapError ParseError.schema
  rw [map_faultIf] at hadd
  rw [← List.append_nil (faultIf _ _)]
  apply hadd.bind
  rintro c ⟨hschema, hreply⟩
  have hnew : c.schema.field? c.reply = some { name := a.name, table } := by
    rw [hschema, hreply, field?_withField]
    exact if_pos rfl
  have hpush := withColumns_push s table done a
  rw [← hschema, ← hreply] at hpush
  apply Judged.of_exists
  simp only [bind_eq_ok, accepted_eq_ok, updateField_eq_ok_iff, pure_eq_ok]
  exact ⟨_, ⟨_, ⟨_, hnew, rfl⟩, rfl⟩, hpush⟩

/-- The columns of an entity are refused exactly if two of its attributes have one name. -/
theorem judged_addColumns {t : Table} (ht : s.table? table = some t) (hbare : t.columns = [])
    (attributes : List Attribute) :
    Judged (faultsAlong (fun done a => faultIf (∃ b ∈ done, b.name = a.name)
        (.schema (.duplicateField t.name a.name))) [] attributes)
      (· = withColumns s table attributes) (attributes.foldlM (addColumn table) s) := by
  apply Judged.foldlM (P := fun done s' => s' = withColumns s table done)
  · exact (withColumns_nil s table).symm
  · rintro done a - _ rfl
    exact judged_addColumn ht hbare

end Schemata.Edge
