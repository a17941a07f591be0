import Schemata.Proofs.Model.History
import Mathlib.Data.List.Nodup

/-!
# The layout of a schema

Tables list fields and fields name their table. The two agree in every reachable schema, and names
tell tables apart and the fields of one table. Only adding a table or a field touches the layout;
every other change permutes columns at most.
-/
namespace Schemata

/-- What a field is called and where it belongs, which never changes. -/
def Field.label (f : Field) : String × TableId := (f.name, f.table)

theorem Field.set_label (f : Field) (x : Setting) : (f.set x).label = f.label := by
  obtain ⟨hn, ht, -⟩ := f.set_frame x
  simp [label, hn, ht]

theorem Field.setAll_label (f : Field) (settings : List Setting) :
    (f.setAll settings).label = f.label := by
  unfold setAll
  induction settings generalizing f with
  | nil => rfl
  | cons x settings ih => exact (ih (f.set x)).trans (f.set_label x)

theorem map_modify_eq {α β : Type} {g : α → β} {f : α → α} (h : ∀ a, g (f a) = g a) (l : List α)
    (i : Nat) : (l.modify i f).map g = l.map g := by
  ext j : 1
  simp only [List.getElem?_map, List.getElem?_modify]
  by_cases hij : i = j
  · cases l[j]? <;> simp [hij, h]
  · cases l[j]? <;> simp [hij]

namespace Schema
variable {s s' : Schema}

structure Layout (s : Schema) : Prop where
  names : (s.tables.map (·.name)).Nodup
  hasTable : ∀ {f a}, s.field? f = some a → ∃ t, s.table? a.table = some t
  mem_columns : ∀ {id t}, s.table? id = some t →
    ∀ f, f ∈ t.columns ↔ ∃ a, s.field? f = some a ∧ a.table = id
  nodup_columns : ∀ {id t}, s.table? id = some t → t.columns.Nodup
  eq_of_name : ∀ {f g a b}, s.field? f = some a → s.field? g = some b →
    a.table = b.table → a.name = b.name → f = g

/-- Up to the order of columns, the same tables and fields in the same places. -/
structure SameLayout (s s' : Schema) : Prop where
  names : s'.tables.map (·.name) = s.tables.map (·.name)
  columns : ∀ {id t'}, s'.table? id = some t' → ∃ t, s.table? id = some t ∧
    t'.columns.Perm t.columns
  labels : s'.fields.map Field.label = s.fields.map Field.label

theorem SameLayout.trans {s'' : Schema} (h : SameLayout s s') (h' : SameLayout s' s'') :
    SameLayout s s'' where
  names := h'.names.trans h.names
  columns ht := by
    obtain ⟨t', ht', hp'⟩ := h'.columns ht
    obtain ⟨t, ht, hp⟩ := h.columns ht'
    exact ⟨t, ht, hp'.trans hp⟩
  labels := h'.labels.trans h.labels

theorem sameLayout_modifyTable (s : Schema) (id : TableId) {f : Table → Table}
    (hname : ∀ t, (f t).name = t.name) (hcolumns : ∀ t, (f t).columns.Perm t.columns) :
    SameLayout s (s.modifyTable id f) where
  names := map_modify_eq hname s.tables id.index
  columns {other t'} ht := by
    rw [table?_modifyTable] at ht
    by_cases h : other = id
    · rw [if_pos h] at ht
      obtain ⟨t, hold, rfl⟩ := Option.map_eq_some_iff.1 ht
      exact ⟨t, h ▸ hold, hcolumns t⟩
    · rw [if_neg h] at ht
      exact ⟨t', ht, .refl _⟩
  labels := rfl

theorem sameLayout_modifyField (s : Schema) (id : FieldId) {f : Field → Field}
    (h : ∀ a, (f a).label = a.label) : SameLayout s (s.modifyField id f) where
  names := rfl
  columns ht := ⟨_, ht, .refl _⟩
  labels := map_modify_eq h s.fields id.index

/-- Bindings are no part of the layout. -/
theorem sameLayout_rebind (s : Schema) (table : TableId) (native : FieldId)
    (bindings : Table → Keyed FieldId FieldId) (foreign : Option FieldId) :
    SameLayout s ((s.modifyTable table fun t => { t with bindings := bindings t }).modifyField
      native fun f => { f with foreign }) := by
  have htable := sameLayout_modifyTable s table (f := fun t => { t with bindings := bindings t })
    (fun _ => rfl) fun _ => .refl _
  apply htable.trans
  apply sameLayout_modifyField
  exact fun _ => rfl

theorem SameLayout.exists_table (h : SameLayout s s') {id : TableId} {t : Table}
    (ht : s.table? id = some t) : ∃ t', s'.table? id = some t' := by
  have hl := congrArg List.length h.names
  have hlt := lt_of_table? ht
  simp only [List.length_map] at hl
  exact ⟨_, List.getElem?_eq_getElem (hl ▸ hlt)⟩

theorem SameLayout.label_eq (h : SameLayout s s') (f : FieldId) :
    (s'.field? f).map Field.label = (s.field? f).map Field.label := by
  unfold field?
  rw [← List.getElem?_map, ← List.getElem?_map, h.labels]

theorem SameLayout.exists_field (h : SameLayout s s') {f : FieldId} {a : Field}
    (ha : s'.field? f = some a) :
    ∃ b, s.field? f = some b ∧ b.name = a.name ∧ b.table = a.table := by
  have hl := h.label_eq f
  rw [ha, Option.map_some, eq_comm, Option.map_eq_some_iff] at hl
  obtain ⟨b, hb, he⟩ := hl
  exact ⟨b, hb, congrArg Prod.fst he, congrArg Prod.snd he⟩

theorem SameLayout.owned_iff (h : SameLayout s s') (f : FieldId) (id : TableId) :
    (∃ a, s'.field? f = some a ∧ a.table = id) ↔ ∃ a, s.field? f = some a ∧ a.table = id := by
  have hl := congrArg (Option.map Prod.snd) (h.label_eq f)
  simp only [Option.map_map] at hl
  constructor
  · rintro ⟨a, ha, rfl⟩
    obtain ⟨b, hb, -, ht⟩ := h.exists_field ha
    exact ⟨b, hb, ht⟩
  · rintro ⟨a, ha, rfl⟩
    rw [ha, Option.map_some, Option.map_eq_some_iff] at hl
    obtain ⟨b, hb, he⟩ := hl
    exact ⟨b, hb, he⟩

theorem Layout.of_same (hs : Layout s) (h : SameLayout s s') : Layout s' where
  names := h.names ▸ hs.names
  hasTable hf := by
    obtain ⟨b, hb, -, ht⟩ := h.exists_field hf
    obtain ⟨t, hb⟩ := hs.hasTable hb
    exact h.exists_table (ht ▸ hb)
  mem_columns ht f := by
    obtain ⟨t, ht, hp⟩ := h.columns ht
    rw [hp.mem_iff, hs.mem_columns ht, h.owned_iff]
  nodup_columns ht := by
    obtain ⟨t, ht, hp⟩ := h.columns ht
    exact hp.nodup_iff.2 (hs.nodup_columns ht)
  eq_of_name hf hg ht hn := by
    obtain ⟨a, ha, han, hat⟩ := h.exists_field hf
    obtain ⟨b, hb, hbn, hbt⟩ := h.exists_field hg
    exact hs.eq_of_name ha hb (hat.trans (ht.trans hbt.symm)) (han.trans (hn.trans hbn.symm))

theorem Layout.addTable (hs : Layout s) {name : String} (hfresh : ∀ t ∈ s.tables, t.name ≠ name) :
    Layout (s.withTable name) where
  names := by
    rw [withTable, List.map_append, List.nodup_append]
    refine ⟨hs.names, by simp, ?_⟩
    intro a ha b hb
    obtain ⟨t, ht, rfl⟩ := List.mem_map.1 ha
    rw [List.mem_singleton.1 hb]
    exact hfresh t ht
  hasTable {f a} hf := by
    obtain ⟨t, ht⟩ := hs.hasTable hf
    rw [table?_withTable, if_neg (Nat.ne_of_lt (lt_of_table? ht))]
    exact ⟨t, ht⟩
  mem_columns {id t} ht := by
    revert id t
    apply forall_withTable (P := fun id t =>
      ∀ f, f ∈ t.columns ↔ ∃ a, s.field? f = some a ∧ a.table = id)
    · exact fun id t => hs.mem_columns
    · intro f
      -- no field names a table that was not there
      have hno : ¬∃ a, s.field? f = some a ∧ a.table = ⟨s.tables.length⟩ := by
        rintro ⟨a, ha, hat⟩
        obtain ⟨t, ht⟩ := hs.hasTable ha
        exact Nat.ne_of_lt (lt_of_table? ht) (congrArg TableId.index hat)
      exact iff_of_false List.not_mem_nil hno
  nodup_columns {id t} ht := by
    revert id t
    apply forall_withTable (P := fun _ t => t.columns.Nodup)
    · exact fun id t => hs.nodup_columns
    · exact List.nodup_nil
  eq_of_name := hs.eq_of_name

theorem tableNames_withField (s : Schema) (table : TableId) (name : String) :
    (s.withField table name).tables.map (·.name) = s.tables.map (·.name) :=
  map_modify_eq (g := Table.name)
    (f := fun t => { t with columns := t.columns ++ [⟨s.fields.length⟩] }) (fun _ => rfl) s.tables
    table.index

theorem Layout.addField (hs : Layout s) {table : TableId} {t : Table} {name : String}
    (ht : s.table? table = some t)
    (hfresh : ∀ g ∈ t.columns, ∀ f, s.field? g = some f → f.name ≠ name) :
    Layout (s.withField table name) where
  names := by
    rw [tableNames_withField]
    exact hs.names
  hasTable {f a} hf := by
    have hold : ∃ u, s.table? a.table = some u := by
      revert f a
      apply forall_withField (P := fun _ a => ∃ u, s.table? a.table = some u)
      · exact fun f a => hs.hasTable
      · exact ⟨t, ht⟩
    obtain ⟨u, hu⟩ := hold
    rw [table?_withField, ht]
    by_cases h : a.table = table
    · exact ⟨_, if_pos h⟩
    · exact ⟨u, by rw [if_neg h, hu]⟩
  mem_columns {id u} hu f := by
    rw [table?_withField] at hu
    rw [field?_withField]
    by_cases hid : id = table
    · rw [if_pos hid, ht] at hu
      cases hu
      rw [List.mem_append, List.mem_singleton, hid]
      by_cases hf : f.index = s.fields.length
      · have hfe : f = ⟨s.fields.length⟩ := congrArg FieldId.mk hf
        simp [hfe]
      · have hfe : f ≠ ⟨s.fields.length⟩ := fun h => hf (congrArg FieldId.index h)
        simp [hf, hfe, hs.mem_columns ht f]
    · rw [if_neg hid] at hu
      rw [hs.mem_columns hu]
      by_cases hf : f.index = s.fields.length
      · have hno : s.field? f = none := List.getElem?_eq_none (Nat.le_of_eq hf.symm)
        simp [hf, hno, Ne.symm hid]
      · simp [hf]
  nodup_columns {id u} hu := by
    rw [table?_withField] at hu
    by_cases hid : id = table
    · rw [if_pos hid, ht] at hu
      cases hu
      refine List.nodup_append.2 ⟨hs.nodup_columns ht, by simp, ?_⟩
      intro a ha b hb he
      obtain ⟨x, hx, -⟩ := (hs.mem_columns ht a).1 ha
      rw [he, List.mem_singleton.1 hb] at hx
      exact Nat.ne_of_lt (lt_of_field? hx) rfl
    · rw [if_neg hid] at hu
      exact hs.nodup_columns hu
  eq_of_name {f g a b} hf hg htab hname := by
    have hother {g : FieldId} {a : Field} (hg : s.field? g = some a) (ha : a.table = table) :
        a.name ≠ name := hfresh g ((hs.mem_columns ht g).2 ⟨a, hg, ha⟩) a hg
    rw [field?_withField] at hf hg
    split at hf <;> split at hg
    · rename_i h h'
      exact congrArg FieldId.mk (h.trans h'.symm)
    · cases hf
      exact absurd hname.symm (hother hg htab.symm)
    · cases hg
      exact absurd hname (hother hf htab)
    · exact hs.eq_of_name hf hg htab hname

theorem layout_invariant : Invariant Layout where
  empty := ⟨by simp, by simp [field?], by simp [table?], by simp [table?], by simp [field?]⟩
  addTable _ hs hfresh := hs.addTable hfresh
  addField _ hs ht hfresh := hs.addField ht hfresh
  updateField settings _ hs _ :=
    hs.of_same (sameLayout_modifyField _ _ fun a => a.setAll_label settings)
  addRelated _ hs _ _ _ :=
    hs.of_same (sameLayout_modifyTable _ _ (fun _ => rfl) fun _ => .refl _)
  bind {s native foreign f g t} _ hs _ _ _ _ := hs.of_same
    (sameLayout_rebind s f.table native (·.bindings.insert native foreign) (some foreign))
  unbind {s native f} _ hs _ := hs.of_same
    (sameLayout_rebind s f.table native (·.bindings.erase native) none)
  setIndex _ hs _ :=
    hs.of_same (sameLayout_modifyTable _ _ (fun _ => rfl) fun _ => .refl _)
  swap table place _ hs :=
    hs.of_same (sameLayout_modifyTable _ _ (fun _ => rfl) fun t => swapNext_perm place t.columns)

/-- A field is found by its table and its name. -/
theorem Layout.fieldNamed?_eq_some_iff (hs : Layout s) {id : TableId} {name : String}
    {f : FieldId} : s.fieldNamed? id name = some f ↔
      ∃ a, s.field? f = some a ∧ a.table = id ∧ a.name = name := by
  constructor
  · intro h
    obtain ⟨t, ht, hfind⟩ := Option.bind_eq_some_iff.1 h
    obtain ⟨a, ha, htable⟩ := (hs.mem_columns ht f).1 (List.mem_of_find?_eq_some hfind)
    have hname := List.find?_some hfind
    rw [ha, Option.any_some, beq_iff_eq] at hname
    exact ⟨a, ha, htable, hname⟩
  · rintro ⟨a, ha, rfl, rfl⟩
    obtain ⟨t, ht⟩ := hs.hasTable ha
    have hmem := (hs.mem_columns ht f).2 ⟨a, ha, rfl⟩
    cases hfind : s.fieldNamed? a.table a.name with
    | none => exact absurd rfl ((fieldNamed?_eq_none ht).1 hfind f hmem a ha)
    | some g =>
      simp only [fieldNamed?, ht, Option.bind_eq_bind, Option.bind_some] at hfind
      obtain ⟨b, hb, htable⟩ := (hs.mem_columns ht g).1 (List.mem_of_find?_eq_some hfind)
      have hname := List.find?_some hfind
      rw [hb, Option.any_some, beq_iff_eq] at hname
      rw [hs.eq_of_name hb ha htable hname]

end Schema
end Schemata
