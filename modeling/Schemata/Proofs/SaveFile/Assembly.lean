import Schemata.Proofs.SaveFile.Consistency
import Schemata.Proofs.SaveFile.Outline

/-!
# Consistent files are put together

Each step of the assembly is accepted and leads from one outline to the next. So a consistent file
gives the schema of the outline in which all its rows are placed and all its references made.
-/
namespace Schemata.SaveFile
open Outline
variable {α : Type} {k : Outline} {b : Block} {r : Row}

theorem found_eq_ok {fault : LineFault} {o : Option α} {a : α} :
    found fault o = .ok a ↔ o = some a := by
  cases o <;> simp [found, misfit]

/-! ### Tables -/

theorem addTable_draft {bs : List Block} (hname : b.name ∉ bs.map Block.name) :
    addTable (draft { blocks := bs }) b = .ok (draft { blocks := bs ++ [b] }) := by
  have hfresh : ∀ t ∈ (schema { blocks := bs }).tables, t.name ≠ b.name := by
    intro t ht he
    obtain ⟨c, hc, rfl⟩ := List.mem_map.1 ht
    exact hname (List.mem_map.2 ⟨c, hc, he⟩)
  have hschema : schema { blocks := bs ++ [b] } = (schema { blocks := bs }).withTable b.name :=
    congrArg₂ Schema.mk List.map_append rfl
  have hplaces : places { blocks := bs ++ [b] } = { places { blocks := bs } with
      tables := (b.id, ⟨(schema { blocks := bs }).tables.length⟩) ::
        (places { blocks := bs }).tables } := by
    simp [places, blockIds, rowIds, schema, withPlaces_push]
  simp only [addTable, draft, bind_eq_ok, accepted_eq_ok, Schema.addTable_eq_ok_iff, pure_eq_ok]
  exact ⟨_, ⟨hfresh, rfl⟩, Prod.ext hschema hplaces⟩

theorem foldlM_addTable (bs done : List Block) (h : ((done ++ bs).map Block.name).Nodup) :
    bs.foldlM addTable (draft { blocks := done }) = .ok (draft { blocks := done ++ bs }) := by
  induction bs generalizing done with
  | nil =>
    rw [List.append_nil]
    rfl
  | cons b bs ih =>
    have hname : b.name ∉ done.map Block.name := by
      rw [List.map_append, List.nodup_append] at h
      exact fun hb => h.2.2 _ hb _ List.mem_cons_self rfl
    rw [List.append_cons] at h ⊢
    rw [foldlM_cons_of_ok (addTable_draft hname)]
    exact ih (done ++ [b]) h

/-! ### Relations -/

theorem addRelated_schema (hk : k.blockIds.Nodup) {id n : Nat} (hid : id ∈ k.blockIds)
    (hn : n ∈ k.blockIds) :
    ∃ c, k.schema.addRelated (k.tablePlace id) (k.tablePlace n) = .ok c ∧
      c.schema = (k.withRelated id [n]).schema := by
  obtain ⟨b, hb, rfl⟩ := List.mem_map.1 hid
  obtain ⟨b', hb', rfl⟩ := List.mem_map.1 hn
  have ht := table?_tablePlace hk hb
  have ht' := table?_tablePlace hk hb'
  refine ⟨_, Schema.addRelated_eq_ok_iff.2 ⟨_, ht, ⟨_, ht'⟩, rfl⟩, ?_⟩
  by_cases hm : k.tablePlace b'.id ∈ k.related b.id
  · have hsame : k.withRelated b.id [b'.id] = k := by
      simp [withRelated, enlist, hm]
    rw [hsame]
    exact congrArg Change.schema (if_pos hm)
  · rw [← schema_withRelated hk hid hm]
    exact congrArg Change.schema (if_neg hm)

theorem addRelated_draft (hk : k.blockIds.Nodup) {id n : Nat} (hid : id ∈ k.blockIds)
    (hn : n ∈ k.blockIds) :
    addRelated k.places b (k.tablePlace id) k.schema n = .ok (k.withRelated id [n]).schema := by
  obtain ⟨c, hc, hschema⟩ := addRelated_schema hk hid hn
  simp only [addRelated, bind_eq_ok, found_eq_ok, accepted_eq_ok, pure_eq_ok]
  exact ⟨_, lookup_tables hk hn, c, hc, hschema.symm⟩

theorem foldlM_addRelated (hk : k.blockIds.Nodup) {id : Nat} (hid : id ∈ k.blockIds)
    (related : List Nat) (h : ∀ n ∈ related, n ∈ k.blockIds) :
    related.foldlM (addRelated k.places b (k.tablePlace id)) k.schema =
      .ok (k.withRelated id related).schema := by
  induction related generalizing k with
  | nil =>
    rw [withRelated_nil]
    rfl
  | cons n related ih =>
    have htail := ih (k := k.withRelated id [n]) hk hid fun m hm => h m (List.mem_cons_of_mem _ hm)
    rw [foldlM_cons_of_ok (addRelated_draft hk hid (h n List.mem_cons_self)),
      withRelated_cons id n related]
    exact htail

/-! ### Columns -/

/-- Rows that may be columns of one schema. -/
def Apart (r r' : Row) : Prop := r.table = r'.table → r.name ≠ r'.name

theorem addColumn_draft (hk : k.blockIds.Nodup) (hid : r.table ∈ k.blockIds)
    (hforeign : k.foreign r.id = none) {type : DataType}
    (htype : DataType.ofCode? r.typeCode = some type) (hname : ∀ r' ∈ k.rows, Apart r' r) :
    addColumn (k.tablePlace r.table) k.draft r = .ok (k.withRows [r]).draft := by
  obtain ⟨b, hb, hbr⟩ := List.mem_map.1 hid
  have ht := hbr ▸ table?_tablePlace hk hb
  have hfresh : ∀ g ∈ (k.table b).columns, ∀ f, k.schema.field? g = some f → f.name ≠ r.name := by
    intro g hg f hf
    obtain ⟨r', hr', hrt⟩ := mem_columns.1 hg
    simp only [Schema.field?, schema, List.getElem?_map, hr', Option.map_some,
      Option.some.injEq] at hf
    rw [← hf]
    exact hname r' (List.mem_of_getElem? hr') (hrt.trans hbr)
  have hnew : (k.schema.withField (k.tablePlace r.table) r.name).field? ⟨k.schema.fields.length⟩ =
      some { name := r.name, table := k.tablePlace r.table } :=
    (Schema.field?_withField ..).trans (if_pos rfl)
  have hplaces : (k.withRows [r]).places =
      { k.places with fields := (r.id, ⟨k.schema.fields.length⟩) :: k.places.fields } := by
    rw [places_withRows, show k.schema.fields.length = k.rows.length from List.length_map _]
  simp only [addColumn, draft, bind_eq_ok, found_eq_ok, accepted_eq_ok,
    Schema.addField_eq_ok_iff, Schema.updateField_eq_ok_iff, pure_eq_ok]
  refine ⟨type, htype, _, ⟨_, ht, hfresh, rfl⟩, _, ⟨_, hnew, rfl⟩, Prod.ext ?_ hplaces⟩
  exact (schema_withRows hk hid hforeign htype).symm

theorem foldlM_addColumn (hk : k.blockIds.Nodup) {id : Nat} (hid : id ∈ k.blockIds)
    (hforeign : ∀ n, k.foreign n = none) (rs : List Row) (htable : ∀ r ∈ rs, r.table = id)
    (htype : ∀ r ∈ rs, ∃ type, DataType.ofCode? r.typeCode = some type)
    (hapart : (k.rows ++ rs).Pairwise Apart) :
    rs.foldlM (addColumn (k.tablePlace id)) k.draft = .ok (k.withRows rs).draft := by
  induction rs generalizing k with
  | nil =>
    rw [withRows, List.append_nil]
    rfl
  | cons r rs ih =>
    obtain ⟨type, hr⟩ := htype r List.mem_cons_self
    have hrid : r.table = id := htable r List.mem_cons_self
    have hname : ∀ r' ∈ k.rows, Apart r' r := fun r' hr' =>
      (List.pairwise_append.1 hapart).2.2 r' hr' r List.mem_cons_self
    have hstep := addColumn_draft hk (hrid ▸ hid) (hforeign r.id) hr hname
    rw [List.append_cons] at hapart
    have htail := ih (k := k.withRows [r]) hk hid hforeign
      (fun r' hr' => htable r' (List.mem_cons_of_mem _ hr'))
      (fun r' hr' => htype r' (List.mem_cons_of_mem _ hr')) hapart
    rw [withRows_withRows, List.singleton_append] at htail
    rw [hrid] at hstep
    rw [foldlM_cons_of_ok hstep]
    exact htail

/-! ### Filled tables -/

/-- With the relations and columns of a block. -/
def Outline.filled (rows : List Row) (k : Outline) (b : Block) : Outline :=
  (k.withRelated b.id b.related).withRows (ownRows rows b)

theorem mapM_nativeRow {rows : List Row} {natives : List Nat}
    (h : ∀ n ∈ natives, ∃ r ∈ rows, r.id = n ∧ r.table = b.id) :
    natives.mapM (nativeRow rows b) =
      .ok (natives.filterMap fun n => rows.find? fun r => r.id == n && r.table == b.id) := by
  induction natives with
  | nil => rfl
  | cons n natives ih =>
    have htail := ih fun m hm => h m (List.mem_cons_of_mem _ hm)
    obtain ⟨r, hr, hrn, hrb⟩ := h n List.mem_cons_self
    cases hf : rows.find? fun r => r.id == n && r.table == b.id with
    | none =>
      have hno := List.find?_eq_none.1 hf r hr
      simp [hrn, hrb] at hno
    | some r' =>
      have hn : nativeRow rows b n = .ok r' := found_eq_ok.2 hf
      rw [List.mapM_cons, hn, htail, List.filterMap_cons, hf]
      rfl

/-- What the filling of a table asks of its block, given the numbers of all blocks. -/
structure Fits (ids : List Nat) (rows : List Row) (b : Block) : Prop where
  related : ∀ n ∈ b.related, n ∈ ids
  native : ∀ n ∈ b.native, ∃ r ∈ rows, r.id = n ∧ r.table = b.id
  typeCodes : ∀ r ∈ ownRows rows b, ∃ type, DataType.ofCode? r.typeCode = some type

theorem fillTable_draft {rows : List Row} (hids : (rows.map Row.id).Nodup)
    (hk : k.blockIds.Nodup) (hid : b.id ∈ k.blockIds) (hforeign : ∀ n, k.foreign n = none)
    (h : Fits k.blockIds rows b) (hapart : (k.rows ++ ownRows rows b).Pairwise Apart) :
    fillTable rows k.draft b = .ok (k.filled rows b).draft := by
  have hrelated := foldlM_addRelated (b := b) hk hid b.related h.related
  have hcolumns := foldlM_addColumn (k := k.withRelated b.id b.related) hk hid hforeign
    (ownRows rows b) (fun r hr => ((mem_ownRows hids).1 hr).2) h.typeCodes hapart
  simp only [fillTable, draft, bind_eq_ok, recorded_eq_ok]
  exact ⟨_, lookup_tables hk hid, _, hrelated, _, mapM_nativeRow h.native, hcolumns⟩

theorem Consistent.fits {file : SaveFile} (h : Consistent file) (hb : b ∈ file.blocks) :
    Fits (file.blocks.map Block.id) file.rows b where
  related := h.related b hb
  native := h.native b hb
  typeCodes r hr := h.typeCodes r ((mem_ownRows h.rowIds).1 hr).1

theorem foldl_filled (rows : List Row) (bs : List Block) (k : Outline) :
    bs.foldl (filled rows) k = { k with
      rows := k.rows ++ bs.flatMap (ownRows rows)
      related := (bs.foldl (filled rows) k).related } := by
  induction bs generalizing k with
  | nil => simp
  | cons b bs ih =>
    rw [List.foldl_cons, ih]
    simp [filled, withRows, withRelated]

theorem foldlM_fillTable {rows : List Row} (hids : (rows.map Row.id).Nodup) (bs : List Block)
    (hk : k.blockIds.Nodup) (hbs : ∀ b ∈ bs, b.id ∈ k.blockIds) (hforeign : ∀ n, k.foreign n = none)
    (h : ∀ b ∈ bs, Fits k.blockIds rows b)
    (hapart : (k.rows ++ bs.flatMap (ownRows rows)).Pairwise Apart) :
    bs.foldlM (fillTable rows) k.draft = .ok (bs.foldl (filled rows) k).draft := by
  induction bs generalizing k with
  | nil => rfl
  | cons b bs ih =>
    rw [List.flatMap_cons, ← List.append_assoc] at hapart
    have hstep := fillTable_draft hids hk (hbs b List.mem_cons_self) hforeign
      (h b List.mem_cons_self) (List.pairwise_append.1 hapart).1
    rw [foldlM_cons_of_ok hstep]
    exact ih (k := k.filled rows b) hk (fun c hc => hbs c (List.mem_cons_of_mem _ hc)) hforeign
      (fun c hc => h c (List.mem_cons_of_mem _ hc)) hapart

/-! ### References -/

theorem bind_schema (hk : k.blockIds.Nodup) (hrows : k.rowIds.Nodup) (hid : r.table ∈ k.blockIds)
    (hr : r ∈ k.rows) {r' : Row} (hr' : r' ∈ k.rows)
    (hrelated : k.tablePlace r'.table ∈ k.related r.table) :
    ∃ c, k.schema.bind (k.fieldPlace r.id) (k.fieldPlace r'.id) = .ok c ∧
      c.schema = (k.withBound r r'.id).schema := by
  obtain ⟨b, hb, hbr⟩ := List.mem_map.1 hid
  have ht := hbr ▸ table?_tablePlace hk hb
  have hmem : k.tablePlace r'.table ∈ (k.table b).related := by
    rw [table_related, hbr]
    exact hrelated
  exact ⟨_, Schema.bind_eq_ok_iff.2 ⟨_, _, _, field?_fieldPlace hrows hr,
    field?_fieldPlace hrows hr', ht, hmem, rfl⟩, schema_withBound hk hrows hid r'.id⟩

theorem bindRow_draft (hk : k.blockIds.Nodup) (hrows : k.rowIds.Nodup)
    (howners : ∀ r ∈ k.rows, r.table ∈ k.blockIds) (hr : r ∈ k.rows)
    (href : ∀ ref, r.foreign = some ref → ∃ r' ∈ k.rows, r'.id = ref.field ∧
      r'.table = ref.table) :
    bindRow k.places k.schema r = .ok (k.withReference r).schema := by
  unfold bindRow withReference
  cases hf : r.foreign with
  | none => rfl
  | some ref =>
    obtain ⟨r', hr', hfield, htable⟩ := href ref hf
    have hid := howners r hr
    have hid' := howners r' hr'
    obtain ⟨c, hc, hschema⟩ := addRelated_schema hk hid hid'
    have hmem : k.tablePlace r'.table ∈ (k.withRelated r.table [r'.table]).related r.table := by
      simp [withRelated, mem_enlist]
    obtain ⟨c', hc', hschema'⟩ := bind_schema (k := k.withRelated r.table [r'.table]) hk hrows hid
      hr hr' hmem
    rw [← hschema] at hc'
    have hnative := lookup_fields hrows (List.mem_map_of_mem hr)
    have htarget := lookup_fields hrows (List.mem_map_of_mem hr')
    simp only [bind_eq_ok, recorded_eq_ok, found_eq_ok, ← hfield, ← htable]
    refine ⟨_, hnative, _, htarget, _, field?_fieldPlace hrows hr', ?_⟩
    rw [field_table, if_pos (lookup_tables hk hid')]
    simp only [bind_eq_ok, recorded_eq_ok, accepted_eq_ok, pure_eq_ok]
    exact ⟨_, field?_fieldPlace hrows hr, c, hc, c', hc', hschema'.symm⟩

theorem withReference_frame (k : Outline) (r : Row) :
    (k.withReference r).blocks = k.blocks ∧ (k.withReference r).rows = k.rows := by
  unfold withReference
  cases r.foreign <;> exact ⟨rfl, rfl⟩

theorem foldlM_bindRow (rs : List Row) (hk : k.blockIds.Nodup) (hrows : k.rowIds.Nodup)
    (howners : ∀ r ∈ k.rows, r.table ∈ k.blockIds) (hr : ∀ r ∈ rs, r ∈ k.rows)
    (href : ∀ r ∈ rs, ∀ ref, r.foreign = some ref → ∃ r' ∈ k.rows, r'.id = ref.field ∧
      r'.table = ref.table) :
    rs.foldlM (bindRow k.places) k.schema = .ok (rs.foldl withReference k).schema := by
  induction rs generalizing k with
  | nil => rfl
  | cons r rs ih =>
    obtain ⟨hblocks, hkrows⟩ := withReference_frame k r
    have hstep := bindRow_draft hk hrows howners (hr r List.mem_cons_self)
      (href r List.mem_cons_self)
    have hplaces : (k.withReference r).places = k.places := by
      simp only [places, blockIds, rowIds, hblocks, hkrows]
    have htail := ih (k := k.withReference r) (by rwa [blockIds, hblocks])
      (by rwa [rowIds, hkrows]) (by rwa [blockIds, hblocks, hkrows])
      (fun r' hr' => hkrows ▸ hr r' (List.mem_cons_of_mem _ hr'))
      (fun r' hr' => hkrows ▸ href r' (List.mem_cons_of_mem _ hr'))
    rw [foldlM_cons_of_ok hstep, ← hplaces]
    exact htail

/-! ### Files -/

/-- With all tables filled, but no reference made yet. -/
def listed (file : SaveFile) : Outline :=
  file.blocks.foldl (filled file.rows) { blocks := file.blocks }

def outline (file : SaveFile) : Outline := file.rows.foldl withReference (listed file)

theorem listed_eq (file : SaveFile) : listed file =
    { blocks := file.blocks, rows := placedRows file, related := (listed file).related } :=
  foldl_filled file.rows file.blocks _

theorem checkOwner_eq_ok {places : Places} :
    checkOwner places r = .ok () ↔ ∃ id, places.tables.lookup r.table = some id := by
  simp only [checkOwner, bind_eq_ok, found_eq_ok]
  exact exists_congr fun id => and_iff_left rfl

theorem Consistent.pairwise_apart {file : SaveFile} (h : Consistent file) :
    (placedRows file).Pairwise Apart := by
  have hperm := h.placedRows_perm
  apply (hperm.nodup_iff.2 h.nodup_rows).pairwise_of_forall_ne
  intro r hr r' hr' hne ht hn
  exact hne (h.fieldNames r (hperm.mem_iff.1 hr) r' (hperm.mem_iff.1 hr') ht hn)

/-- What is consistent is accepted, and this is what comes of it. -/
theorem toSchema_of_consistent {file : SaveFile} (h : Consistent file) :
    file.toSchema = .ok (outline file).schema := by
  have hperm := h.placedRows_perm
  have htables : file.blocks.foldlM addTable ({}, {}) = .ok (draft { blocks := file.blocks }) :=
    foldlM_addTable file.blocks [] h.tableNames
  have howners : file.rows.forM (checkOwner (places { blocks := file.blocks })) = .ok () :=
    forM_eq_ok.2 fun r hr => checkOwner_eq_ok.2
      ⟨_, lookup_tables (k := { blocks := file.blocks }) h.blockIds (h.owners r hr)⟩
  have hfill : file.blocks.foldlM (fillTable file.rows) (draft { blocks := file.blocks }) =
      .ok (listed file).draft :=
    foldlM_fillTable (k := { blocks := file.blocks }) h.rowIds file.blocks h.blockIds
      (fun b hb => List.mem_map_of_mem hb) (fun _ => rfl) (fun b hb => h.fits hb) h.pairwise_apart
  have hlisted := listed_eq file
  have hbind : file.rows.foldlM (bindRow (listed file).places) (listed file).schema =
      .ok (outline file).schema := by
    apply foldlM_bindRow
    · rw [hlisted]
      exact h.blockIds
    · rw [hlisted]
      exact (hperm.map Row.id).nodup_iff.2 h.rowIds
    · rw [hlisted]
      exact fun r hr => h.owners r (hperm.mem_iff.1 hr)
    · rw [hlisted]
      exact fun r hr => hperm.mem_iff.2 hr
    · rw [hlisted]
      intro r hr ref href
      obtain ⟨r', hr', he⟩ := h.references r hr ref href
      exact ⟨r', hperm.mem_iff.2 hr', he⟩
  rw [toSchema, htables]
  simp only [bind_eq_ok]
  exact ⟨_, rfl, _, howners, _, hfill, hbind⟩

end Schemata.SaveFile
