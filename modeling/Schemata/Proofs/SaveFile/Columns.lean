import Schemata.Proofs.SaveFile.Finding

/-!
# Rows become fields

Rows become fields in the order in which they are placed, whatever their numbers are. A number leads
to the field of the last row under it, and a reference is attached to what the numbers lead to.
-/
namespace Schemata.SaveFile
open Schema
variable {file : SaveFile} {rs : List Row} {draft draft' : Draft} {places : Places} {s s' : Schema}
  {b : Block} {r : Row} {table : TableId}

/-- The table that a number leads to: that of the last block under it. -/
def tableOf (file : SaveFile) (n : Nat) : Option TableId :=
  (Outline.places { blocks := file.blocks }).tables.lookup n

theorem exists_block_of_tableOf {n : Nat} (h : tableOf file n = some table) :
    ∃ b, file.blocks[table.index]? = some b ∧ b.id = n := by
  obtain ⟨i, rfl, hi, -⟩ := (lookup_withPlaces_eq_some TableId.mk).1 h
  rw [Outline.blockIds, List.getElem?_map, Option.map_eq_some_iff] at hi
  exact hi

/-- What a row says of its field, apart from its reference. -/
structure Becomes (file : SaveFile) (r : Row) (f : Field) : Prop where
  name : f.name = r.name
  default : f.default = r.default
  table : tableOf file r.table = some f.table

/-- The schema at hand when some rows have become fields and nothing has a reference yet. -/
structure Placed (file : SaveFile) (rs : List Row) (draft : Draft) : Prop where
  names : draft.1.tables.map (·.name) = file.blocks.map Block.name
  tables : draft.2.tables = (Outline.places { blocks := file.blocks }).tables
  numbers : draft.2.fields = withPlaces FieldId.mk (rs.map Row.id)
  fields : List.Forall₂ (Becomes file) rs draft.1.fields
  unbound : ∀ f ∈ draft.1.fields, f.foreign = none

theorem Placed.addColumn (h : Placed file rs draft) (ht : tableOf file r.table = some table)
    (hr : addColumn table draft r = .ok draft') : Placed file (rs ++ [r]) draft' := by
  simp only [SaveFile.addColumn, bind_eq_ok, found_eq_ok, accepted_eq_ok, addField_eq_ok_iff,
    updateField_eq_ok_iff, pure_eq_ok] at hr
  obtain ⟨type, -, _, ⟨t, -, -, rfl⟩, _, ⟨f, -, rfl⟩, rfl⟩ := hr
  have hfields : ((draft.1.withField table r.name).modifyField ⟨draft.1.fields.length⟩
      (·.setAll (rowSettings r type))).fields =
      draft.1.fields ++ [Field.setAll { name := r.name, table } (rowSettings r type)] :=
    modify_push draft.1.fields _ _
  have hcount : (rs.map Row.id).length = draft.1.fields.length := by
    rw [List.length_map, h.fields.length_eq]
  constructor
  · exact (tableNames_withField draft.1 table r.name).trans h.names
  · exact h.tables
  · rw [List.map_append, List.map_singleton, withPlaces_push, hcount, ← h.numbers]
  · rw [hfields]
    exact List.rel_append h.fields (.cons ⟨rfl, rfl, ht⟩ .nil)
  · rw [hfields]
    exact List.forall_mem_append.2 ⟨h.unbound, List.forall_mem_singleton.2 rfl⟩

theorem frame_of_addRelated {related : TableId} {c : Change Unit}
    (h : s.addRelated table related = .ok c) :
    c.schema.tables.map (·.name) = s.tables.map (·.name) ∧ c.schema.fields = s.fields := by
  obtain ⟨t, -, -, rfl⟩ := addRelated_eq_ok_iff.1 h
  split
  · exact ⟨rfl, rfl⟩
  · exact ⟨SameLayout.names (sameLayout_modifyTable s table (fun _ => rfl) fun _ => .refl _), rfl⟩

theorem Placed.fillTable (h : Placed file rs draft)
    (hb : fillTable file.rows draft b = .ok draft') :
    Placed file (rs ++ ownRows file.rows b) draft' := by
  simp only [SaveFile.fillTable, bind_eq_ok, recorded_eq_ok] at hb
  obtain ⟨table, htable, s, hs, listed, hlisted, hcolumns⟩ := hb
  rw [ownRows_of_mapM hlisted] at hcolumns
  have hstart : Placed file rs (s, draft.2) := by
    apply foldlM_invariant (P := fun s => Placed file rs (s, draft.2)) _ h hs
    intro s _ s' hs hrelated
    simp only [addRelated, bind_eq_ok, accepted_eq_ok, pure_eq_ok] at hrelated
    obtain ⟨_, -, c, hc, rfl⟩ := hrelated
    obtain ⟨hnames, hfields⟩ := frame_of_addRelated hc
    exact ⟨hnames.trans hs.names, hs.tables, hs.numbers, hfields.symm ▸ hs.fields,
      hfields.symm ▸ hs.unbound⟩
  have hrun : Ends (fun _ => True) (fun draft' => Placed file (rs ++ ownRows file.rows b) draft')
      ((ownRows file.rows b).foldlM (SaveFile.addColumn table) (s, draft.2)) := by
    apply Ends.foldlM (P := fun done => Placed file (rs ++ done))
    · rwa [List.append_nil]
    · intro done r rest hl d hd
      apply Ends.of_given
      intro d' hd'
      have hr : r ∈ ownRows file.rows b := hl ▸ List.mem_append_right done List.mem_cons_self
      rw [← List.append_assoc]
      apply hd.addColumn _ hd'
      rw [(of_mem_ownRows hr).2, tableOf, ← h.tables, htable]
  exact hrun.given hcolumns

/-- Once all tables are filled, all placed rows have become fields. -/
theorem placed_of_fill (h : fill file = .ok draft) : Placed file (placedRows file) draft := by
  simp only [fill, bind_eq_ok] at h
  obtain ⟨made, hmade, _, -, hfill⟩ := h
  cases (ends_addTables file.blocks).given hmade
  have hrun : Ends (fun _ => True) (Placed file (placedRows file))
      (file.blocks.foldlM (SaveFile.fillTable file.rows)
        (Outline.draft { blocks := file.blocks })) := by
    apply Ends.foldlM (P := fun done => Placed file (done.flatMap (ownRows file.rows)))
    · exact ⟨by simp [Outline.draft, Outline.schema, Outline.table], rfl, rfl, .nil,
        List.forall_mem_nil _⟩
    · intro done b rest _ d hd
      apply Ends.of_given
      intro d' hd'
      rw [List.flatMap_append, List.flatMap_singleton]
      exact hd.fillTable hd'
  exact hrun.given hfill

/-! ### References -/

/-- The references of the rows that have been gone through, attached to what their numbers lead
to. -/
structure Attached (file : SaveFile) (places : Places) (done : List Row) (s : Schema) : Prop where
  names : s.tables.map (·.name) = file.blocks.map Block.name
  fields : List.Forall₂ (Becomes file) (placedRows file) s.fields
  sound : ∀ p f g, s.field? p = some f → f.foreign = some g → ∃ r ∈ done, ∃ ref,
    r.foreign = some ref ∧ places.fields.lookup r.id = some p ∧
      ∃ r', (placedRows file)[g.index]? = some r' ∧ r'.id = ref.field ∧ r'.table = ref.table
  complete : ∀ r ∈ done, ∀ ref, r.foreign = some ref →
    ∃ p f g, places.fields.lookup r.id = some p ∧ s.field? p = some f ∧ f.foreign = some g

/-- What an accepted reference has found, and what it does to the fields. -/
theorem fields_of_bindRow {ref : Reference} (href : r.foreign = some ref)
    (h : bindRow places s r = .ok s') : ∃ p g b, places.fields.lookup r.id = some p ∧
      (∃ a, s.field? p = some a) ∧ places.fields.lookup ref.field = some g ∧
      s.field? g = some b ∧ places.tables.lookup ref.table = some b.table ∧
      s'.tables.map (·.name) = s.tables.map (·.name) ∧
      s'.fields = s.fields.modify p.index fun f => { f with foreign := some g } := by
  simp only [bindRow, href, bind_eq_ok, recorded_eq_ok, found_eq_ok] at h
  obtain ⟨p, hp, g, hg, b, hb, h⟩ := h
  split at h
  · rename_i htable
    simp only [bind_eq_ok, recorded_eq_ok, accepted_eq_ok, bind_eq_ok_iff, pure_eq_ok] at h
    obtain ⟨a, ha, c, hc, c', ⟨f, _, _, -, -, -, -, rfl⟩, rfl⟩ := h
    obtain ⟨hnames, hfields⟩ := frame_of_addRelated hc
    refine ⟨p, g, b, hp, ⟨a, ha⟩, hg, hb, htable, ?_, ?_⟩
    · exact (sameLayout_rebind c.schema f.table p (·.bindings.insert p g) (some g)).names.trans
        hnames
    · rw [← hfields]
      rfl
  · cases h

/-- A number leads to the field of the last row under it. -/
theorem Placed.lookup_eq_some (h : Placed file rs draft) {n : Nat} {p : FieldId} :
    draft.2.fields.lookup n = some p ↔ ∃ r, rs[p.index]? = some r ∧ r.id = n ∧
      ∀ i r', rs[i]? = some r' → r'.id = n → i ≤ p.index := by
  have hnumber (i : Nat) : (rs.map Row.id)[i]? = some n ↔ ∃ r, rs[i]? = some r ∧ r.id = n := by
    rw [List.getElem?_map, Option.map_eq_some_iff]
  simp only [h.numbers, lookup_withPlaces_eq_some, hnumber]
  constructor
  · rintro ⟨i, rfl, ⟨r, hr, hid⟩, hlast⟩
    exact ⟨r, hr, hid, fun j r' hr' hid' => hlast j ⟨r', hr', hid'⟩⟩
  · rintro ⟨r, hr, hid, hlast⟩
    exact ⟨p.index, rfl, ⟨r, hr, hid⟩, fun j ⟨r', hr', hid'⟩ => hlast j r' hr' hid'⟩

/-- The target of a reference is the field of a row with its number, in the table that it names. -/
theorem Attached.exists_target {done : List Row} (h : Attached file draft.2 done s)
    (hp : Placed file (placedRows file) draft) {ref : Reference} {g : FieldId} {b : Field}
    (htarget : draft.2.fields.lookup ref.field = some g) (hb : s.field? g = some b)
    (htable : draft.2.tables.lookup ref.table = some b.table) :
    ∃ r', (placedRows file)[g.index]? = some r' ∧ r'.id = ref.field ∧ r'.table = ref.table := by
  obtain ⟨r', hr', hid, -⟩ := hp.lookup_eq_some.1 htarget
  obtain ⟨b', hb', hbecomes⟩ := getElem?_of_forall₂ h.fields hr'
  cases hb.symm.trans hb'
  -- the table is that of the block under the number of the row and under that of the reference
  obtain ⟨c, hc, hcid⟩ := exists_block_of_tableOf hbecomes.table
  obtain ⟨c', hc', hcid'⟩ := exists_block_of_tableOf (hp.tables ▸ htable)
  cases hc.symm.trans hc'
  exact ⟨r', hr', hid, hcid.symm.trans hcid'⟩

theorem Attached.skip {done : List Row} (h : Attached file draft.2 done s)
    (hforeign : r.foreign = none) : Attached file draft.2 (done ++ [r]) s where
  names := h.names
  fields := h.fields
  sound p f g hf hg := by
    obtain ⟨r', hr', hfound⟩ := h.sound p f g hf hg
    exact ⟨r', List.mem_append_left _ hr', hfound⟩
  complete := List.forall_mem_append.2 ⟨h.complete, by simp [hforeign]⟩

theorem Attached.attach {done : List Row} (h : Attached file draft.2 done s)
    (hp : Placed file (placedRows file) draft) {ref : Reference} (href : r.foreign = some ref)
    (hr : bindRow draft.2 s r = .ok s') : Attached file draft.2 (done ++ [r]) s' := by
  obtain ⟨p, g, b, hnative, ⟨a, ha⟩, htarget, hb, htable, hnames, hfields⟩ :=
    fields_of_bindRow href hr
  have hfield (q : FieldId) : s'.field? q =
      if q = p then some { a with foreign := some g } else s.field? q := by
    have hmodify := field?_modifyField p q (fun f => { f with foreign := some g }) (s := s)
    rw [ha, Option.map_some] at hmodify
    rw [← hmodify, field?, hfields]
    rfl
  constructor
  · exact hnames.trans h.names
  · rw [hfields]
    exact forall₂_modify (fun _ _ h => ⟨h.name, h.default, h.table⟩) h.fields _
  · intro q f g' hf hg'
    rw [hfield] at hf
    split at hf
    · rename_i hq
      cases hf
      cases hg'
      exact ⟨r, by simp, ref, href, hq ▸ hnative, h.exists_target hp htarget hb htable⟩
    · obtain ⟨r', hr', hfound⟩ := h.sound q f g' hf hg'
      exact ⟨r', List.mem_append_left _ hr', hfound⟩
  · rw [List.forall_mem_append, List.forall_mem_singleton]
    constructor
    · intro r' hr' ref' href'
      obtain ⟨q, f, g', hq, hf, hg'⟩ := h.complete r' hr' ref' href'
      by_cases he : q = p
      · exact ⟨q, _, g, hq, (hfield q).trans (if_pos he), rfl⟩
      · exact ⟨q, f, g', hq, (hfield q).trans ((if_neg he).trans hf), hg'⟩
    · intro _ _
      exact ⟨p, _, g, hnative, (hfield p).trans (if_pos rfl), rfl⟩

theorem Attached.bindRow {done : List Row} (h : Attached file draft.2 done s)
    (hp : Placed file (placedRows file) draft) (hr : bindRow draft.2 s r = .ok s') :
    Attached file draft.2 (done ++ [r]) s' := by
  cases href : r.foreign with
  | none =>
    simp only [SaveFile.bindRow, href, pure_eq_ok] at hr
    exact hr ▸ h.skip href
  | some ref => exact h.attach hp href hr

/-- A file with its schema, and with the draft that had all fields but no reference. -/
structure Assembled (file : SaveFile) (draft : Draft) (s : Schema) : Prop where
  owners : ∀ r ∈ file.rows, ∃ b ∈ file.blocks, b.id = r.table
  placed : Placed file (placedRows file) draft
  attached : Attached file draft.2 file.rows s
  layout : Layout s

theorem assembled_of_toSchema (h : file.toSchema = .ok s) : ∃ draft, Assembled file draft s := by
  have hlayout := layout_invariant.holds (reachable_toSchema h)
  rw [toSchema_eq, bind_eq_ok] at h
  obtain ⟨draft, hfill, hbind⟩ := h
  have hp := placed_of_fill hfill
  have hrun : Ends (fun _ => True) (Attached file draft.2 file.rows)
      (file.rows.foldlM (SaveFile.bindRow draft.2) draft.1) := by
    apply Ends.foldlM (P := Attached file draft.2)
    · refine ⟨hp.names, hp.fields, fun p f g hf hg => ?_, List.forall_mem_nil _⟩
      rw [hp.unbound f (mem_fields_iff.2 ⟨p, hf⟩)] at hg
      cases hg
    · intro done r rest _ s hs
      exact Ends.of_given fun s' hs' => hs.bindRow hp hs'
  exact ⟨draft, ((ends_fill file).given hfill).owners, hp, hrun.given hbind, hlayout⟩

end Schemata.SaveFile
