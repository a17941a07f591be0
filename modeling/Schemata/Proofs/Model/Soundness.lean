import Schemata.Proofs.Keyed
import Schemata.Proofs.Model.Layout

/-!
# The structural invariant

On top of the layout, relations, indexes and counting columns stay within bounds. Together these are
what readers and writers of a schema rely on wherever they follow an id.
-/
namespace Schemata

/-- Only INTEGER columns count. -/
def Field.CountsInteger (a : Field) : Prop := a.autoIncrement = true → a.dataType = .integer

theorem Field.CountsInteger.set {a : Field} (h : a.CountsInteger) (x : Setting) :
    (a.set x).CountsInteger := by
  cases x with
  | dataType t => simp [CountsInteger, Field.set]
  | autoIncrement on =>
    intro hon
    exact if_pos hon
  | _ => exact h

theorem Field.CountsInteger.setAll {a : Field} (h : a.CountsInteger) (settings : List Setting) :
    (a.setAll settings).CountsInteger := by
  unfold Field.setAll
  induction settings generalizing a with
  | nil => exact h
  | cons x settings ih => exact ih (h.set x)

namespace Schema
variable {s : Schema}

/-! ### Relations -/

/-- Relations are a set of tables among the first `n`. -/
def Related (n : Nat) (t : Table) : Prop := t.related.Nodup ∧ ∀ r ∈ t.related, r.index < n

def Relations (s : Schema) : Prop := ∀ id t, s.table? id = some t → Related s.tables.length t

theorem Related.push {n : Nat} {t : Table} (h : Related n t) {r : TableId} (hr : r.index < n)
    (hfresh : r ∉ t.related) : Related n { t with related := t.related ++ [r] } := by
  refine ⟨List.nodup_append.2 ⟨h.1, by simp, ?_⟩, ?_⟩
  · intro a ha b hb he
    rw [List.mem_singleton.1 hb] at he
    exact hfresh (he ▸ ha)
  · intro x hx
    rcases List.mem_append.1 hx with hx | hx
    · exact h.2 x hx
    · rw [List.mem_singleton.1 hx]
      exact hr

theorem Relations.modifyTable (hs : Relations s) {id : TableId} {f : Table → Table}
    (hf : ∀ t, s.table? id = some t → Related s.tables.length (f t)) :
    Relations (s.modifyTable id f) := by
  unfold Relations
  rw [show (s.modifyTable id f).tables.length = s.tables.length from List.length_modify ..]
  exact forall_modifyTable hs hf

theorem Relations.modifyField (hs : Relations s) (id : FieldId) (f : Field → Field) :
    Relations (s.modifyField id f) := hs

theorem relations_invariant : Invariant Relations where
  empty := by simp [Relations, table?]
  addTable {s name} _ hs _ := by
    have hlength : s.tables.length ≤ (s.withTable name).tables.length := by simp [withTable]
    apply forall_withTable (P := fun _ => Related (s.withTable name).tables.length)
    · intro id t ht
      exact ⟨(hs id t ht).1, fun r hr => Nat.lt_of_lt_of_le ((hs id t ht).2 r hr) hlength⟩
    · exact ⟨List.nodup_nil, by simp⟩
  addField {s table t name} _ hs _ _ := by
    have hs' : Relations { s with fields := s.fields ++ [{ name, table }] } := hs
    apply Relations.modifyTable hs'
    exact fun t ht => hs table t ht
  updateField _ _ hs _ := hs
  addRelated _ hs ht hu hfresh := by
    apply Relations.modifyTable hs
    intro t' ht'
    cases ht.symm.trans ht'
    exact (hs _ _ ht).push (lt_of_table? hu) hfresh
  bind _ hs _ _ _ _ := by
    apply Relations.modifyField
    apply Relations.modifyTable hs
    exact fun t ht => hs _ t ht
  unbind _ hs _ := by
    apply Relations.modifyField
    apply Relations.modifyTable hs
    exact fun t ht => hs _ t ht
  setIndex _ hs _ := by
    apply Relations.modifyTable hs
    exact fun t ht => hs _ t ht
  swap _ _ _ hs := by
    apply Relations.modifyTable hs
    exact fun t ht => hs _ t ht

/-! ### Indexes -/

def Owned (s : Schema) (id : TableId) (f : FieldId) : Prop :=
  ∃ a, s.field? f = some a ∧ a.table = id

def Indexed (s : Schema) (id : TableId) (t : Table) : Prop :=
  ∀ name f, t.indexes.get? name = some f → Owned s id f

def Indexes (s : Schema) : Prop := ∀ id t, s.table? id = some t → Indexed s id t

theorem Owned.withField {table id : TableId} {name : String} {f : FieldId} (h : Owned s id f) :
    Owned (s.withField table name) id f := by
  obtain ⟨a, ha, hid⟩ := h
  refine ⟨a, ?_, hid⟩
  rw [field?_withField, if_neg (Nat.ne_of_lt (lt_of_field? ha)), ha]

theorem Indexes.modifyTable (hs : Indexes s) {id : TableId} {f : Table → Table}
    (hf : ∀ t, s.table? id = some t → Indexed s id (f t)) : Indexes (s.modifyTable id f) :=
  forall_modifyTable (P := fun i => Indexed s i) hs hf

theorem Indexes.modifyField (hs : Indexes s) (id : FieldId) {f : Field → Field}
    (hf : ∀ a, (f a).label = a.label) : Indexes (s.modifyField id f) := by
  intro i t ht name g hg
  exact ((sameLayout_modifyField s id hf).owned_iff g i).2 (hs i t ht name g hg)

theorem indexes_invariant : Invariant Indexes where
  empty := by simp [Indexes, table?]
  addTable {s name} _ hs _ := by
    apply forall_withTable (P := fun id => Indexed (s.withTable name) id) hs
    intro x f hf
    cases hf
  addField {s table t name} _ hs _ _ := by
    apply forall_modifyTable (P := fun i => Indexed (s.withField table name) i)
    · exact fun i t ht x f hf => (hs i t ht x f hf).withField
    · exact fun t ht x f hf => (hs table t ht x f hf).withField
  updateField settings _ hs _ := hs.modifyField _ fun a => a.setAll_label settings
  addRelated _ hs _ _ _ := by
    apply Indexes.modifyTable hs
    exact fun t ht => hs _ t ht
  bind _ hs _ _ _ _ := by
    apply Indexes.modifyField
    · apply Indexes.modifyTable hs
      exact fun t ht => hs _ t ht
    · exact fun _ => rfl
  unbind _ hs _ := by
    apply Indexes.modifyField
    · apply Indexes.modifyTable hs
      exact fun t ht => hs _ t ht
    · exact fun _ => rfl
  setIndex {s index field f} _ hs hf := by
    apply Indexes.modifyTable hs
    intro t ht name g hg
    rw [Keyed.get?_insert] at hg
    split at hg
    · cases hg
      exact ⟨f, hf, rfl⟩
    · exact hs _ t ht name g hg
  swap _ _ _ hs := by
    apply Indexes.modifyTable hs
    exact fun t ht => hs _ t ht

/-! ### Counting columns -/

def Counting (s : Schema) : Prop := ∀ f a, s.field? f = some a → a.CountsInteger

theorem Counting.modifyField (hs : Counting s) {id : FieldId} {f : Field → Field}
    (hf : ∀ a, a.CountsInteger → (f a).CountsInteger) : Counting (s.modifyField id f) :=
  forall_modifyField (P := fun _ a => a.CountsInteger) hs fun a ha => hf a (hs id a ha)

theorem counting_invariant : Invariant Counting where
  empty := by simp [Counting, field?]
  addTable _ hs _ := hs
  addField {s table t name} _ hs _ _ := by
    apply forall_withField (P := fun _ a => a.CountsInteger) hs
    simp [Field.CountsInteger]
  updateField settings _ hs _ := hs.modifyField fun _ ha => ha.setAll settings
  addRelated _ hs _ _ _ := hs
  bind {s native foreign f g t} _ hs _ _ _ _ := by
    have hs' : Counting (s.modifyTable f.table fun t =>
      { t with bindings := t.bindings.insert native foreign }) := hs
    exact hs'.modifyField fun _ ha => ha
  unbind {s native f} _ hs _ := by
    have hs' : Counting (s.modifyTable f.table fun t =>
      { t with bindings := t.bindings.erase native }) := hs
    exact hs'.modifyField fun _ ha => ha
  setIndex _ hs _ := hs
  swap _ _ _ hs := hs

/-! ### All together -/

/-- A schema whose ids all lead to where they should. -/
structure Sound (s : Schema) : Prop where
  /-- Table names are pairwise distinct. -/
  tableNames : (s.tables.map (·.name)).Nodup
  /-- Column lists contain only fields of the schema. -/
  columnsExist : ∀ t ∈ s.tables, ∀ f ∈ t.columns, ∃ a, s.field? f = some a
  /-- A field is a column of the table that it names, once, and of no other table. -/
  columnOnce : ∀ f a, s.field? f = some a → ∃ t, s.table? a.table = some t ∧
    t.columns.count f = 1 ∧ ∀ id u, s.table? id = some u → f ∈ u.columns → id = a.table
  /-- Field names are pairwise distinct within a table. -/
  fieldNames : ∀ t ∈ s.tables, (t.columns.map fun f => (s.field? f).map (·.name)).Nodup
  relatedOnce : ∀ t ∈ s.tables, t.related.Nodup
  relatedExist : ∀ t ∈ s.tables, ∀ r ∈ t.related, ∃ u, s.table? r = some u
  /-- Every entry of an index is a field of the table itself. -/
  indexesOwned : ∀ id t, s.table? id = some t →
    ∀ e ∈ t.indexes.entries, ∃ a, s.field? e.2 = some a ∧ a.table = id
  autoIncrementInteger : ∀ a ∈ s.fields, a.autoIncrement = true → a.dataType = .integer

theorem Layout.nodup_names (hs : Layout s) {id : TableId} {t : Table} (ht : s.table? id = some t) :
    (t.columns.map fun f => (s.field? f).map (·.name)).Nodup := by
  apply (hs.nodup_columns ht).map_on
  intro f hf g hg hname
  obtain ⟨a, ha, hat⟩ := (hs.mem_columns ht f).1 hf
  obtain ⟨b, hb, hbt⟩ := (hs.mem_columns ht g).1 hg
  rw [ha, hb, Option.map_some, Option.map_some, Option.some.injEq] at hname
  exact hs.eq_of_name ha hb (hat.trans hbt.symm) hname

/-- After any sequence of operations, accepted or refused and with any arguments. -/
theorem ofHistory_sound (ops : List Operation) : Sound (ofHistory ops) := by
  have hl := layout_invariant.ofHistory ops
  have hr := relations_invariant.ofHistory ops
  have hi := indexes_invariant.ofHistory ops
  have hc := counting_invariant.ofHistory ops
  generalize ofHistory ops = s at hl hr hi hc
  refine ⟨hl.names, ?_, ?_, ?_, ?_, ?_, ?_, ?_⟩
  · intro t ht f hf
    obtain ⟨id, ht⟩ := mem_tables_iff.1 ht
    obtain ⟨a, ha, -⟩ := (hl.mem_columns ht f).1 hf
    exact ⟨a, ha⟩
  · intro f a ha
    obtain ⟨t, ht⟩ := hl.hasTable ha
    have hmem : f ∈ t.columns := (hl.mem_columns ht f).2 ⟨a, ha, rfl⟩
    refine ⟨t, ht, List.count_eq_one_of_mem (hl.nodup_columns ht) hmem, ?_⟩
    intro id u hu hf
    obtain ⟨b, hb, rfl⟩ := (hl.mem_columns hu f).1 hf
    cases ha.symm.trans hb
    rfl
  · intro t ht
    obtain ⟨id, ht⟩ := mem_tables_iff.1 ht
    exact hl.nodup_names ht
  · intro t ht
    obtain ⟨id, ht⟩ := mem_tables_iff.1 ht
    exact (hr id t ht).1
  · intro t ht r hmem
    obtain ⟨id, ht⟩ := mem_tables_iff.1 ht
    exact ⟨_, List.getElem?_eq_getElem ((hr id t ht).2 r hmem)⟩
  · intro id t ht e he
    exact hi id t ht e.1 e.2 ((Keyed.mem_iff_lookup t.indexes.keys_nodup e.1 e.2).1 he)
  · intro a ha
    obtain ⟨f, ha⟩ := mem_fields_iff.1 ha
    exact hc f a ha

end Schema
end Schemata
