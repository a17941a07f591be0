import Schemata.Model.Operation
import Schemata.Proofs.Outcome

/-!
# What each operation does

An operation is accepted exactly under its own conditions, and then it leads to one schema. Look-ups
in that schema are reduced to look-ups in the one before.
-/
namespace Schemata.Schema
variable {s : Schema}

/-! ### Look-ups after a change -/

@[simp] theorem table?_modifyField (id : FieldId) (f : Field → Field) :
    (s.modifyField id f).table? = s.table? := rfl

@[simp] theorem field?_modifyTable (id : TableId) (f : Table → Table) :
    (s.modifyTable id f).field? = s.field? := rfl

@[simp] theorem table?_modifyTable (id other : TableId) (f : Table → Table) :
    (s.modifyTable id f).table? other =
      if other = id then (s.table? id).map f else s.table? other := by
  by_cases h : other = id
  · subst h
    simp [table?, modifyTable]
  · have hi : id.index ≠ other.index := fun he => h (congrArg TableId.mk he).symm
    simp [table?, modifyTable, h, hi]

@[simp] theorem field?_modifyField (id other : FieldId) (f : Field → Field) :
    (s.modifyField id f).field? other =
      if other = id then (s.field? id).map f else s.field? other := by
  by_cases h : other = id
  · subst h
    simp [field?, modifyField]
  · have hi : id.index ≠ other.index := fun he => h (congrArg FieldId.mk he).symm
    simp [field?, modifyField, h, hi]

/-! ### Changes of one table -/

/-- A change counts only for the table that is there. -/
theorem modifyTable_congr {id : TableId} {f g : Table → Table}
    (h : ∀ t, s.table? id = some t → f t = g t) : s.modifyTable id f = s.modifyTable id g := by
  apply congrArg fun tables => Schema.mk tables s.fields
  ext i : 1
  rw [List.getElem?_modify, List.getElem?_modify]
  by_cases hi : id.index = i
  · subst hi
    cases ht : s.tables[id.index]? with
    | none => rfl
    | some t => simp [h t ht]
  · simp [hi]

theorem modifyTable_id (s : Schema) (table : TableId) : s.modifyTable table id = s :=
  congrArg (fun tables => Schema.mk tables s.fields) (List.modify_id table.index s.tables)

theorem modifyTable_modifyTable (s : Schema) (id : TableId) (f g : Table → Table) :
    (s.modifyTable id f).modifyTable id g = s.modifyTable id (g ∘ f) :=
  congrArg (fun tables => Schema.mk tables s.fields)
    (List.modify_modify_eq f g id.index s.tables)

/-! ### The schemata that operations lead to -/

def withTable (s : Schema) (name : String) : Schema := { s with tables := s.tables ++ [{ name }] }

/-- With one more field, which is the last column of its table. -/
def withField (s : Schema) (table : TableId) (name : String) : Schema :=
  ({ s with fields := s.fields ++ [{ name, table }] } : Schema).modifyTable table fun t =>
    { t with columns := t.columns ++ [⟨s.fields.length⟩] }

/-- With a field bound, in its own record and in that of its table. -/
def withBinding (s : Schema) (table : TableId) (native foreign : FieldId) : Schema :=
  (s.modifyTable table fun t =>
    { t with bindings := t.bindings.insert native foreign }).modifyField native fun f =>
    { f with foreign := some foreign }

def withoutBinding (s : Schema) (table : TableId) (native : FieldId) : Schema :=
  (s.modifyTable table fun t =>
    { t with bindings := t.bindings.erase native }).modifyField native fun f =>
    { f with foreign := none }

theorem getElem?_push {α : Type} (l : List α) (a : α) (i : Nat) :
    (l ++ [a])[i]? = if i = l.length then some a else l[i]? := by
  by_cases h : i = l.length
  · simp [h]
  · rw [if_neg h]
    rcases Nat.lt_or_gt_of_ne h with hlt | hgt
    · exact List.getElem?_append_left hlt
    · rw [List.getElem?_eq_none (by simp; omega), List.getElem?_eq_none (by omega)]

theorem table?_withTable (name : String) (id : TableId) :
    (s.withTable name).table? id =
      if id.index = s.tables.length then some { name } else s.table? id :=
  getElem?_push s.tables _ id.index

theorem field?_withField (table : TableId) (name : String) (id : FieldId) :
    (s.withField table name).field? id =
      if id.index = s.fields.length then some { name, table } else s.field? id :=
  getElem?_push s.fields _ id.index

theorem table?_withField (table : TableId) (name : String) (id : TableId) :
    (s.withField table name).table? id = if id = table then
      (s.table? table).map fun t => { t with columns := t.columns ++ [⟨s.fields.length⟩] }
    else s.table? id :=
  table?_modifyTable table id _

theorem table?_withBinding (table : TableId) (native foreign : FieldId) (id : TableId) :
    (s.withBinding table native foreign).table? id = if id = table then
      (s.table? table).map fun t => { t with bindings := t.bindings.insert native foreign }
    else s.table? id :=
  table?_modifyTable table id _

theorem field?_withBinding (table : TableId) (native foreign id : FieldId) :
    (s.withBinding table native foreign).field? id = if id = native then
      (s.field? native).map fun f => { f with foreign := some foreign }
    else s.field? id :=
  field?_modifyField native id _

theorem table?_withoutBinding (table : TableId) (native : FieldId) (id : TableId) :
    (s.withoutBinding table native).table? id = if id = table then
      (s.table? table).map fun t => { t with bindings := t.bindings.erase native }
    else s.table? id :=
  table?_modifyTable table id _

theorem field?_withoutBinding (table : TableId) (native id : FieldId) :
    (s.withoutBinding table native).field? id = if id = native then
      (s.field? native).map fun f => { f with foreign := none }
    else s.field? id :=
  field?_modifyField native id _

theorem lt_of_table? {id : TableId} {t : Table} (h : s.table? id = some t) :
    id.index < s.tables.length := (List.getElem?_eq_some_iff.1 h).1

theorem lt_of_field? {id : FieldId} {f : Field} (h : s.field? id = some f) :
    id.index < s.fields.length := (List.getElem?_eq_some_iff.1 h).1

theorem mem_tables_iff {t : Table} : t ∈ s.tables ↔ ∃ id, s.table? id = some t := by
  rw [List.mem_iff_getElem?]
  exact ⟨fun ⟨i, h⟩ => ⟨⟨i⟩, h⟩, fun ⟨id, h⟩ => ⟨id.index, h⟩⟩

theorem mem_fields_iff {f : Field} : f ∈ s.fields ↔ ∃ id, s.field? id = some f := by
  rw [List.mem_iff_getElem?]
  exact ⟨fun ⟨i, h⟩ => ⟨⟨i⟩, h⟩, fun ⟨id, h⟩ => ⟨id.index, h⟩⟩

/-! ### What holds of all tables and fields after a change -/

theorem forall_modifyTable {P : TableId → Table → Prop} {id : TableId} {f : Table → Table}
    (h : ∀ i t, s.table? i = some t → P i t) (hf : ∀ t, s.table? id = some t → P id (f t)) :
    ∀ i t, (s.modifyTable id f).table? i = some t → P i t := by
  intro i t ht
  rw [table?_modifyTable] at ht
  by_cases hi : i = id
  · rw [if_pos hi] at ht
    obtain ⟨u, hu, rfl⟩ := Option.map_eq_some_iff.1 ht
    exact hi ▸ hf u hu
  · rw [if_neg hi] at ht
    exact h i t ht

theorem forall_modifyField {P : FieldId → Field → Prop} {id : FieldId} {f : Field → Field}
    (h : ∀ i a, s.field? i = some a → P i a) (hf : ∀ a, s.field? id = some a → P id (f a)) :
    ∀ i a, (s.modifyField id f).field? i = some a → P i a := by
  intro i a ha
  rw [field?_modifyField] at ha
  by_cases hi : i = id
  · rw [if_pos hi] at ha
    obtain ⟨b, hb, rfl⟩ := Option.map_eq_some_iff.1 ha
    exact hi ▸ hf b hb
  · rw [if_neg hi] at ha
    exact h i a ha

theorem forall_withTable {P : TableId → Table → Prop} {name : String}
    (h : ∀ i t, s.table? i = some t → P i t) (hnew : P ⟨s.tables.length⟩ { name }) :
    ∀ i t, (s.withTable name).table? i = some t → P i t := by
  intro i t ht
  rw [table?_withTable] at ht
  by_cases hi : i.index = s.tables.length
  · rw [if_pos hi] at ht
    cases ht
    rwa [← hi] at hnew
  · rw [if_neg hi] at ht
    exact h i t ht

theorem forall_withField {P : FieldId → Field → Prop} {table : TableId} {name : String}
    (h : ∀ i a, s.field? i = some a → P i a) (hnew : P ⟨s.fields.length⟩ { name, table }) :
    ∀ i a, (s.withField table name).field? i = some a → P i a := by
  intro i a ha
  rw [field?_withField] at ha
  by_cases hi : i.index = s.fields.length
  · rw [if_pos hi] at ha
    cases ha
    rwa [← hi] at hnew
  · rw [if_neg hi] at ha
    exact h i a ha

/-! ### Acceptance -/

theorem requireTable_eq_ok {id : TableId} {t : Table} :
    s.requireTable id = .ok t ↔ s.table? id = some t := by
  unfold requireTable
  cases s.table? id <;> simp

theorem requireField_eq_ok {id : FieldId} {f : Field} :
    s.requireField id = .ok f ↔ s.field? id = some f := by
  unfold requireField
  cases s.field? id <;> simp

theorem fieldNamed?_eq_none {table : TableId} {t : Table} {name : String}
    (ht : s.table? table = some t) :
    s.fieldNamed? table name = none ↔
      ∀ g ∈ t.columns, ∀ f, s.field? g = some f → f.name ≠ name := by
  simp only [fieldNamed?, ht, Option.bind_eq_bind, Option.bind_some, List.find?_eq_none]
  apply forall₂_congr
  intro g _
  cases s.field? g <;> simp

theorem addTable_eq_ok_iff {name : String} {c : Change TableId} :
    s.addTable name = .ok c ↔ (∀ t ∈ s.tables, t.name ≠ name) ∧
      c = ⟨s.withTable name, ⟨s.tables.length⟩, some (.tableAdded ⟨s.tables.length⟩)⟩ := by
  have hnone : s.tableNamed? name = none ↔ ∀ t ∈ s.tables, t.name ≠ name := by
    simp [tableNamed?]
  unfold addTable
  rw [← hnone]
  cases s.tableNamed? name with
  | none => exact pure_eq_ok.trans (by simp [withTable])
  | some id => simp

theorem addField_eq_ok_iff {table : TableId} {name : String} {c : Change FieldId} :
    s.addField table name = .ok c ↔ ∃ t, s.table? table = some t ∧
      (∀ g ∈ t.columns, ∀ f, s.field? g = some f → f.name ≠ name) ∧
      c = ⟨s.withField table name, ⟨s.fields.length⟩, some (.tableChanged table)⟩ := by
  simp only [addField, bind_eq_ok, requireTable_eq_ok]
  apply exists_congr
  intro t
  apply and_congr_right
  intro ht
  rw [← fieldNamed?_eq_none ht]
  cases s.fieldNamed? table name <;> simp [pure_eq_ok, withField]

theorem updateField_eq_ok_iff {id : FieldId} {settings : List Setting} {c : Change Unit} :
    s.updateField id settings = .ok c ↔ ∃ f, s.field? id = some f ∧
      c = ⟨s.modifyField id (·.setAll settings), (), some (.fieldChanged f.table id)⟩ := by
  simp only [updateField, bind_eq_ok, requireField_eq_ok, pure_eq_ok]

theorem isRelatedTo_iff {t : Table} {id : TableId} : t.isRelatedTo id = true ↔ id ∈ t.related :=
  List.contains_iff_mem

theorem addRelated_eq_ok_iff {table related : TableId} {c : Change Unit} :
    s.addRelated table related = .ok c ↔ ∃ t, s.table? table = some t ∧
      (∃ u, s.table? related = some u) ∧
      c = if related ∈ t.related then ⟨s, (), none⟩
        else ⟨s.modifyTable table fun t => { t with related := t.related ++ [related] }, (),
          some (.tableChanged table)⟩ := by
  simp only [addRelated, bind_eq_ok, requireTable_eq_ok, isRelatedTo_iff]
  apply exists_congr
  intro t
  apply and_congr_right
  intro _
  by_cases h : related ∈ t.related <;> simp [h, pure_eq_ok]

theorem bind_eq_ok_iff {native foreign : FieldId} {c : Change Unit} :
    s.bind native foreign = .ok c ↔ ∃ f g t, s.field? native = some f ∧
      s.field? foreign = some g ∧ s.table? f.table = some t ∧ g.table ∈ t.related ∧
      c = ⟨s.withBinding f.table native foreign, (), some (.fieldChanged f.table native)⟩ := by
  simp only [Schema.bind, bind_eq_ok, requireField_eq_ok, requireTable_eq_ok]
  constructor
  · rintro ⟨f, hf, g, hg, t, ht, h⟩
    split at h
    · rename_i hr
      exact ⟨f, g, t, hf, hg, ht, isRelatedTo_iff.1 hr, pure_eq_ok.1 h⟩
    · obtain ⟨_, _, h⟩ := bind_eq_ok.1 h
      cases h
  · rintro ⟨f, g, t, hf, hg, ht, hr, rfl⟩
    refine ⟨f, hf, g, hg, t, ht, ?_⟩
    rw [if_pos (isRelatedTo_iff.2 hr)]
    rfl

theorem unbind_eq_ok_iff {native : FieldId} {c : Change Unit} :
    s.unbind native = .ok c ↔ ∃ f, s.field? native = some f ∧
      c = ⟨s.withoutBinding f.table native, (), some (.fieldChanged f.table native)⟩ := by
  simp only [unbind, bind_eq_ok, requireField_eq_ok, pure_eq_ok, withoutBinding]

theorem setIndex_eq_ok_iff {table : TableId} {index : String} {field : FieldId}
    {c : Change Unit} :
    s.setIndex table index field = .ok c ↔ ∃ t f, s.table? table = some t ∧
      s.field? field = some f ∧ f.table = table ∧
      c = ⟨s.modifyTable table fun t => { t with indexes := t.indexes.insert index field }, (),
        some (.tableChanged table)⟩ := by
  simp only [setIndex, bind_eq_ok, requireField_eq_ok, requireTable_eq_ok]
  apply exists_congr
  intro t
  rw [← exists_and_left]
  apply exists_congr
  intro f
  apply and_congr_right
  intro _
  apply and_congr_right
  intro _
  by_cases h : f.table = table <;> simp [h, pure_eq_ok]

theorem moveUp_eq_ok_iff {field : FieldId} {c : Change Bool} :
    s.moveUp field = .ok c ↔ ∃ f t, s.field? field = some f ∧ s.table? f.table = some t ∧
      c = match t.position? field with
        | some (place + 1) => s.swapColumns f.table t place
        | _ => ⟨s, false, none⟩ := by
  simp only [moveUp, bind_eq_ok, requireField_eq_ok, requireTable_eq_ok]
  apply exists_congr
  intro f
  rw [← exists_and_left]
  apply exists_congr
  intro t
  apply and_congr_right
  intro _
  apply and_congr_right
  intro _
  rcases t.position? field with _ | _ | place <;> simp [pure_eq_ok]

theorem moveDown_eq_ok_iff {field : FieldId} {c : Change Bool} :
    s.moveDown field = .ok c ↔ ∃ f t, s.field? field = some f ∧ s.table? f.table = some t ∧
      c = match t.position? field with
        | some place => s.swapColumns f.table t place
        | none => ⟨s, false, none⟩ := by
  simp only [moveDown, bind_eq_ok, requireField_eq_ok, requireTable_eq_ok]
  apply exists_congr
  intro f
  rw [← exists_and_left]
  apply exists_congr
  intro t
  apply and_congr_right
  intro _
  apply and_congr_right
  intro _
  cases t.position? field <;> simp [pure_eq_ok]

end Schemata.Schema
