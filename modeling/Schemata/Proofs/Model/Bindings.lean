import Schemata.Proofs.Model.Soundness

/-!
# Bindings

A reference is kept twice: in the field that holds it and in the map of the field's table. The two
never disagree, and the referenced field lies in a table that the holder's table is related to.
-/
namespace Schemata

theorem Field.setAll_foreign (f : Field) (settings : List Setting) :
    (f.setAll settings).foreign = f.foreign := by
  unfold setAll
  induction settings generalizing f with
  | nil => rfl
  | cons x settings ih => exact (ih (f.set x)).trans (f.set_frame x).2.2

namespace Schema
variable {s s' : Schema}

/-! ### The map and the fields -/

/-- By the field's own record, it belongs to the table and references `g`. -/
def Refers (s : Schema) (id : TableId) (n g : FieldId) : Prop :=
  ∃ a, s.field? n = some a ∧ a.table = id ∧ a.foreign = some g

def Bindings (s : Schema) : Prop :=
  ∀ id t, s.table? id = some t → ∀ n g, t.boundTo? n = some g ↔ Refers s id n g

theorem refers_modifyField {id : FieldId} {f : Field → Field}
    (hf : ∀ a, (f a).table = a.table ∧ (f a).foreign = a.foreign) (i : TableId) (n g : FieldId) :
    Refers (s.modifyField id f) i n g ↔ Refers s i n g := by
  unfold Refers
  rw [field?_modifyField]
  by_cases hn : n = id
  · subst hn
    cases s.field? n <;> simp [hf]
  · rw [if_neg hn]

theorem refers_withField {table : TableId} {name : String} (i : TableId) (n g : FieldId) :
    Refers (s.withField table name) i n g ↔ Refers s i n g := by
  unfold Refers
  rw [field?_withField]
  by_cases hn : n.index = s.fields.length
  · have hno : s.field? n = none := List.getElem?_eq_none (Nat.le_of_eq hn.symm)
    simp [hn, hno]
  · rw [if_neg hn]

theorem refers_withBinding {native foreign : FieldId} {f : Field} (hf : s.field? native = some f)
    (table i : TableId) (n g : FieldId) :
    Refers (s.withBinding table native foreign) i n g ↔
      if n = native then f.table = i ∧ g = foreign else Refers s i n g := by
  unfold Refers
  rw [field?_withBinding]
  by_cases hn : n = native
  · simp [hn, hf, eq_comm]
  · simp [hn]

theorem refers_withoutBinding {native : FieldId} (table i : TableId) (n g : FieldId) :
    Refers (s.withoutBinding table native) i n g ↔ n ≠ native ∧ Refers s i n g := by
  unfold Refers
  rw [field?_withoutBinding]
  by_cases hn : n = native
  · simp [hn]
  · simp [hn]

theorem Bindings.modifyTable (hs : Bindings s) {id : TableId} {f : Table → Table}
    (hf : ∀ t, (f t).bindings = t.bindings) : Bindings (s.modifyTable id f) := by
  apply forall_modifyTable (P := fun i t => ∀ n g, t.boundTo? n = some g ↔ Refers s i n g) hs
  intro t ht n g
  rw [Table.boundTo?, hf]
  exact hs id t ht n g

theorem bindings_invariant : Invariant Bindings where
  empty := by simp [Bindings, table?]
  addTable {s name} hreach hs _ := by
    apply forall_withTable (P := fun id t => ∀ n g, t.boundTo? n = some g ↔ Refers s id n g) hs
    intro n g
    -- no field belongs to a table that was not there
    have hno : ¬Refers s ⟨s.tables.length⟩ n g := by
      rintro ⟨a, ha, hat, -⟩
      obtain ⟨t, ht⟩ := (layout_invariant.holds hreach).hasTable ha
      exact Nat.ne_of_lt (lt_of_table? ht) (congrArg TableId.index hat)
    exact iff_of_false (by simp [Table.boundTo?]) hno
  addField {s table t name} _ hs _ _ := by
    intro id u hu n g
    rw [refers_withField]
    rw [table?_withField] at hu
    split at hu
    · rename_i hid
      obtain ⟨v, hv, rfl⟩ := Option.map_eq_some_iff.1 hu
      exact hs id v (hid ▸ hv) n g
    · exact hs id u hu n g
  updateField settings _ hs _ := by
    intro id t ht n g
    rw [refers_modifyField]
    · exact hs id t ht n g
    · exact fun a => ⟨congrArg Prod.snd (a.setAll_label settings), a.setAll_foreign settings⟩
  addRelated _ hs _ _ _ := Bindings.modifyTable hs fun _ => rfl
  bind {s native foreign f g t} _ hs hf _ ht _ := by
    intro id u hu n h
    rw [refers_withBinding hf]
    rw [table?_withBinding, ht] at hu
    by_cases hid : id = f.table
    · rw [if_pos hid] at hu
      cases hu
      rw [Table.boundTo?, Keyed.get?_insert]
      by_cases hn : n = native
      · simp [hn, hid, eq_comm]
      · rw [if_neg hn, if_neg hn]
        exact hs id t (hid ▸ ht) n h
    · rw [if_neg hid] at hu
      rw [hs id u hu n h]
      by_cases hn : n = native
      · have hno : ¬Refers s id native h := by
          rintro ⟨a, ha, hat, -⟩
          cases hf.symm.trans ha
          exact hid hat.symm
        simp [hn, hno, Ne.symm hid]
      · rw [if_neg hn]
  unbind {s native f} _ hs hf := by
    intro id u hu n h
    rw [refers_withoutBinding]
    rw [table?_withoutBinding] at hu
    by_cases hid : id = f.table
    · rw [if_pos hid] at hu
      obtain ⟨t, ht, rfl⟩ := Option.map_eq_some_iff.1 hu
      rw [Table.boundTo?, Keyed.get?_erase]
      by_cases hn : n = native
      · simp [hn]
      · rw [if_neg hn, and_iff_right hn]
        exact hs id t (hid ▸ ht) n h
    · rw [if_neg hid] at hu
      rw [hs id u hu n h]
      symm
      apply and_iff_right_of_imp
      rintro ⟨a, ha, hat, -⟩ rfl
      cases hf.symm.trans ha
      exact hid hat.symm
  setIndex _ hs _ := Bindings.modifyTable hs fun _ => rfl
  swap _ _ _ hs := Bindings.modifyTable hs fun _ => rfl

/-! ### Referenced fields -/

def Relates (s : Schema) (id other : TableId) : Prop :=
  ∃ t, s.table? id = some t ∧ other ∈ t.related

/-- A reference leads to a field, and into a related table. -/
def Follows (s : Schema) (a : Field) : Prop :=
  ∀ g, a.foreign = some g → ∃ other, Owned s other g ∧ Relates s a.table other

def References (s : Schema) : Prop := ∀ n a, s.field? n = some a → Follows s a

theorem Follows.mono {a : Field} (h : Follows s a)
    (howned : ∀ other g, Owned s other g → Owned s' other g)
    (hrelates : ∀ id other, Relates s id other → Relates s' id other) : Follows s' a := by
  intro g hg
  obtain ⟨other, ho, hr⟩ := h g hg
  exact ⟨other, howned other g ho, hrelates _ other hr⟩

theorem Relates.modifyTable {id other table : TableId} (h : Relates s id other) {f : Table → Table}
    (hf : ∀ t, other ∈ t.related → other ∈ (f t).related) :
    Relates (s.modifyTable table f) id other := by
  obtain ⟨t, ht, hr⟩ := h
  unfold Relates
  rw [table?_modifyTable]
  by_cases hid : id = table
  · rw [if_pos hid, ← hid, ht]
    exact ⟨f t, rfl, hf t hr⟩
  · rw [if_neg hid]
    exact ⟨t, ht, hr⟩

theorem Relates.withTable {id other : TableId} {name : String} (h : Relates s id other) :
    Relates (s.withTable name) id other := by
  obtain ⟨t, ht, hr⟩ := h
  refine ⟨t, ?_, hr⟩
  rw [table?_withTable, if_neg (Nat.ne_of_lt (lt_of_table? ht)), ht]

theorem References.modifyTable (hs : References s) (table : TableId) {f : Table → Table}
    (hf : ∀ t, t.related ⊆ (f t).related) : References (s.modifyTable table f) :=
  fun n a ha => (hs n a ha).mono (fun _ _ h => h) fun _ _ h => h.modifyTable fun t hr => hf t hr

/-- A field may be given another record, if the label stays and what it references is right. -/
theorem References.modifyField (hs : References s) {id : FieldId} {f : Field → Field}
    (hlabel : ∀ a, (f a).label = a.label) (hf : ∀ a, s.field? id = some a → Follows s (f a)) :
    References (s.modifyField id f) := by
  have hmono {a : Field} (h : Follows s a) : Follows (s.modifyField id f) a :=
    h.mono (fun other g => ((sameLayout_modifyField s id hlabel).owned_iff g other).2)
      fun _ _ hr => hr
  apply forall_modifyField (P := fun _ => Follows (s.modifyField id f))
  · exact fun i a ha => hmono (hs i a ha)
  · exact fun a ha => hmono (hf a ha)

theorem references_invariant : Invariant References where
  empty := by simp [References, field?]
  addTable _ hs _ := fun n a ha => (hs n a ha).mono (fun _ _ h => h) fun _ _ h => h.withTable
  addField {s table t name} _ hs _ _ := by
    apply forall_withField (P := fun _ => Follows (s.withField table name))
    · intro n a ha
      apply (hs n a ha).mono
      · exact fun _ _ h => h.withField
      · exact fun _ _ h =>
          Relates.modifyTable (s := { s with fields := s.fields ++ [{ name, table }] }) h
            fun _ hr => hr
    · intro g hg
      cases hg
  updateField settings _ hs _ := by
    apply References.modifyField hs fun a => a.setAll_label settings
    intro a ha g hg
    rw [a.setAll_foreign] at hg
    rw [show (a.setAll settings).table = a.table from congrArg Prod.snd (a.setAll_label settings)]
    exact hs _ a ha g hg
  addRelated _ hs _ _ _ := References.modifyTable hs _ fun t => List.subset_append_left _ _
  bind {s native foreign f g t} _ hs hf hg ht hrel := by
    have hs' := References.modifyTable hs f.table
      (f := fun t => { t with bindings := t.bindings.insert native foreign })
      fun _ => List.Subset.refl _
    refine References.modifyField hs' (fun _ => rfl) ?_
    intro a ha h hh
    cases hf.symm.trans ha
    cases hh
    exact ⟨g.table, ⟨g, hg, rfl⟩, Relates.modifyTable ⟨t, ht, hrel⟩ fun _ hr => hr⟩
  unbind {s native f} _ hs _ := by
    have hs' := References.modifyTable hs f.table
      (f := fun t => { t with bindings := t.bindings.erase native }) fun _ => List.Subset.refl _
    refine References.modifyField hs' (fun _ => rfl) ?_
    intro a _ h hh
    cases hh
  setIndex _ hs _ := References.modifyTable hs _ fun _ => List.Subset.refl _
  swap _ _ _ hs := References.modifyTable hs _ fun _ => List.Subset.refl _

/-! ### Coherence -/

/-- The keys of the map are the columns that hold a reference. -/
theorem foreignKeyCount_eq_countP (hl : Layout s) (hb : Bindings s) {id : TableId} {t : Table}
    (ht : s.table? id = some t) :
    t.foreignKeyCount = t.columns.countP fun n => (s.field? n).any (·.foreign.isSome) := by
  rw [Table.foreignKeyCount, Keyed.size, ← List.length_map (f := Prod.fst),
    List.countP_eq_length_filter]
  apply List.Perm.length_eq
  rw [List.perm_ext_iff_of_nodup t.bindings.keys_nodup ((hl.nodup_columns ht).filter _)]
  intro n
  rw [Keyed.mem_keys_iff, List.mem_filter, hl.mem_columns ht n]
  constructor
  · rintro ⟨g, hg⟩
    obtain ⟨a, ha, hat, hag⟩ := (hb id t ht n g).1 hg
    exact ⟨⟨a, ha, hat⟩, by simp [ha, hag]⟩
  · rintro ⟨⟨a, ha, hat⟩, hsome⟩
    rw [ha, Option.any_some, Option.isSome_iff_exists] at hsome
    obtain ⟨g, hg⟩ := hsome
    exact ⟨g, (hb id t ht n g).2 ⟨a, ha, hat, hg⟩⟩

structure Coherent (s : Schema) : Prop where
  /-- The map of a table sends `n` to `g` exactly if `n` is a field of it that references `g`. -/
  boundTo : ∀ id t, s.table? id = some t → ∀ n g,
    t.boundTo? n = some g ↔ ∃ a, s.field? n = some a ∧ a.table = id ∧ a.foreign = some g
  /-- What is referenced is a field, whose table is among the related ones. -/
  target : ∀ id t, s.table? id = some t → ∀ n g, t.boundTo? n = some g →
    ∃ b, s.field? g = some b ∧ b.table ∈ t.related
  foreignKeys : ∀ id t, s.table? id = some t →
    t.foreignKeyCount = t.columns.countP fun n => (s.field? n).any (·.foreign.isSome)

/-- After any sequence of operations, with rebinding, unbinding and refused ones among them. -/
theorem ofHistory_coherent (ops : List Operation) : Coherent (ofHistory ops) := by
  have hl := layout_invariant.ofHistory ops
  have hb := bindings_invariant.ofHistory ops
  have hr := references_invariant.ofHistory ops
  generalize ofHistory ops = s at hl hb hr
  refine ⟨hb, ?_, fun id t ht => foreignKeyCount_eq_countP hl hb ht⟩
  intro id t ht n g hg
  obtain ⟨a, ha, rfl, hag⟩ := (hb id t ht n g).1 hg
  obtain ⟨_, ⟨b, hb, rfl⟩, ⟨u, hu, hmem⟩⟩ := hr n a ha g hag
  cases ht.symm.trans hu
  exact ⟨b, hb, hmem⟩

end Schema
end Schemata
