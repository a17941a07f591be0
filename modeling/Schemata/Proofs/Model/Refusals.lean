import Schemata.Proofs.Endings
import Schemata.Proofs.Model.Steps

/-!
# What keeps an operation from being done

Where the records that an operation names are there, only a name that is taken keeps it from being
done. Records that are there stay there.
-/
namespace Schemata

/-- A second field with one name in a table. -/
def SchemaError.IsDuplicateField (e : SchemaError) : Prop :=
  ∃ table field, e = .duplicateField table field

/-- A second table with one name, or a second field with one name in a table. -/
def SchemaError.IsDuplicate (e : SchemaError) : Prop :=
  (∃ name, e = .duplicateTable name) ∨ e.IsDuplicateField

namespace Schema
variable {s s' : Schema} {table related : TableId} {native foreign : FieldId} {name : String}

/-! ### Records that stay -/

def HasTable (s : Schema) (id : TableId) : Prop := ∃ t, s.table? id = some t

def HasField (s : Schema) (id : FieldId) : Prop := ∃ f, s.field? id = some f

/-- All places of the one schema are places of the other. -/
structure Grows (s s' : Schema) : Prop where
  tables : s.tables.length ≤ s'.tables.length
  fields : s.fields.length ≤ s'.fields.length

theorem Grows.refl (s : Schema) : Grows s s := ⟨Nat.le_refl _, Nat.le_refl _⟩

theorem Grows.trans {s'' : Schema} (h : Grows s s') (h' : Grows s' s'') : Grows s s'' :=
  ⟨Nat.le_trans h.tables h'.tables, Nat.le_trans h.fields h'.fields⟩

theorem Grows.hasTable (h : Grows s s') {id : TableId} (ht : s.HasTable id) : s'.HasTable id := by
  obtain ⟨t, ht⟩ := ht
  exact ⟨_, List.getElem?_eq_getElem (Nat.lt_of_lt_of_le (lt_of_table? ht) h.tables)⟩

theorem Grows.hasField (h : Grows s s') {id : FieldId} (hf : s.HasField id) : s'.HasField id := by
  obtain ⟨f, hf⟩ := hf
  exact ⟨_, List.getElem?_eq_getElem (Nat.lt_of_lt_of_le (lt_of_field? hf) h.fields)⟩

theorem grows_addField {c : Change FieldId} (hc : s.addField table name = .ok c) :
    Grows s c.schema := by
  obtain ⟨t, -, -, rfl⟩ := addField_eq_ok_iff.1 hc
  exact ⟨by simp [withField, modifyTable], by simp [withField, modifyTable]⟩

theorem grows_updateField {settings : List Setting} {c : Change Unit}
    (hc : s.updateField native settings = .ok c) : Grows s c.schema := by
  obtain ⟨f, -, rfl⟩ := updateField_eq_ok_iff.1 hc
  exact ⟨Nat.le_refl _, by simp [modifyField]⟩

theorem grows_addRelated {c : Change Unit} (hc : s.addRelated table related = .ok c) :
    Grows s c.schema := by
  obtain ⟨t, -, -, rfl⟩ := addRelated_eq_ok_iff.1 hc
  split
  · exact .refl s
  · exact ⟨by simp [modifyTable], Nat.le_refl _⟩

theorem grows_bind {c : Change Unit} (hc : s.bind native foreign = .ok c) : Grows s c.schema := by
  obtain ⟨f, g, t, -, -, -, -, rfl⟩ := bind_eq_ok_iff.1 hc
  exact ⟨by simp [withBinding, modifyTable, modifyField],
    by simp [withBinding, modifyTable, modifyField]⟩

/-! ### Refusals -/

theorem ends_addTable (s : Schema) (name : String) : Ends (· = .duplicateTable name)
    (fun c => (∀ t ∈ s.tables, t.name ≠ name) ∧ c.schema = s.withTable name ∧
      c.reply = ⟨s.tables.length⟩) (s.addTable name) where
  given h := by
    obtain ⟨hfresh, rfl⟩ := addTable_eq_ok_iff.1 h
    exact ⟨hfresh, rfl, rfl⟩
  refused h := by
    unfold addTable at h
    cases hname : s.tableNamed? name with
    | none =>
      rw [hname] at h
      cases h
    | some id =>
      rw [hname] at h
      exact (Except.error.inj h).symm

theorem ends_addField {t : Table} (ht : s.table? table = some t) (name : String) :
    Ends (· = .duplicateField t.name name)
      (fun c => Grows s c.schema ∧ c.schema.HasField c.reply)
      (s.addField table name) where
  given h := by
    refine ⟨grows_addField h, ?_⟩
    obtain ⟨t, -, -, rfl⟩ := addField_eq_ok_iff.1 h
    exact ⟨_, (field?_withField table name _).trans (if_pos rfl)⟩
  refused h := by
    rw [addField, requireTable_eq_ok.2 ht] at h
    cases hname : s.fieldNamed? table name with
    | none =>
      simp only [hname] at h
      cases h
    | some f =>
      simp only [hname] at h
      cases h
      rfl

/-- A field is refused exactly if a column of its table has its name. -/
theorem judged_addField {bad : Prop} [Decidable bad] {t : Table} (ht : s.table? table = some t)
    (hbad : bad ↔ ∃ g ∈ t.columns, ∃ f, s.field? g = some f ∧ f.name = name) :
    Judged (faultIf bad (.duplicateField t.name name))
      (fun c => c.schema = s.withField table name ∧ c.reply = ⟨s.fields.length⟩)
      (s.addField table name) := by
  have hfresh : s.fieldNamed? table name = none ↔ ¬bad := by
    rw [hbad, fieldNamed?_eq_none ht]
    simp only [not_exists, not_and, ne_eq]
  cases hname : s.fieldNamed? table name with
  | none =>
    have hadd := addField_eq_ok_iff.2 ⟨t, ht, (fieldNamed?_eq_none ht).1 hname, rfl⟩
    rw [hadd, faultIf, if_neg (hfresh.1 hname)]
    exact .accepted ⟨rfl, rfl⟩
  | some f =>
    have htaken : bad := by
      by_contra hnot
      cases hname.symm.trans (hfresh.2 hnot)
    rw [addField, requireTable_eq_ok.2 ht, hname, faultIf, if_pos htaken]
    exact .refused _ []

theorem exists_updateField (hf : s.HasField native) (settings : List Setting) :
    ∃ c, s.updateField native settings = .ok c ∧ Grows s c.schema := by
  obtain ⟨f, hf⟩ := hf
  have hc : s.updateField native settings = .ok _ := updateField_eq_ok_iff.2 ⟨f, hf, rfl⟩
  exact ⟨_, hc, grows_updateField hc⟩

end Schema
end Schemata
