import Schemata.Proofs.SaveFile.Assembly
import Mathlib.Data.List.Pairwise

/-!
# Which files are put together

A step of the assembly is accepted only if its record fits what is there already. So an accepted run
has passed through the outlines of its file, and all conditions met on the way make the file
consistent.
-/
namespace Schemata.SaveFile
open Outline
variable {k : Outline} {b : Block} {r : Row} {rows : List Row}

theorem mem_of_lookup_tables (hk : k.blockIds.Nodup) {id : Nat} {t : TableId}
    (h : k.places.tables.lookup id = some t) : id ∈ k.blockIds ∧ t = k.tablePlace id := by
  rw [places, lookup_withPlaces TableId.mk hk] at h
  split at h
  · rename_i hid
    exact ⟨hid, (Option.some.inj h).symm⟩
  · cases h

theorem mem_of_lookup_fields (hk : k.rowIds.Nodup) {id : Nat} {f : FieldId}
    (h : k.places.fields.lookup id = some f) : id ∈ k.rowIds ∧ f = k.fieldPlace id := by
  rw [places, lookup_withPlaces FieldId.mk hk] at h
  split at h
  · rename_i hid
    exact ⟨hid, (Option.some.inj h).symm⟩
  · cases h

/-! ### Tables -/

theorem name_of_addTable {bs : List Block} {d : Draft}
    (h : addTable (draft { blocks := bs }) b = .ok d) : b.name ∉ bs.map Block.name := by
  simp only [addTable, draft, bind_eq_ok, accepted_eq_ok, Schema.addTable_eq_ok_iff] at h
  obtain ⟨_, ⟨hfresh, -⟩, -⟩ := h
  intro hb
  obtain ⟨c, hc, he⟩ := List.mem_map.1 hb
  exact hfresh _ (List.mem_map_of_mem hc) he

theorem names_of_foldlM (done : List Block) {bs : List Block} {d : Draft}
    (hdone : (done.map Block.name).Nodup)
    (h : bs.foldlM addTable (draft { blocks := done }) = .ok d) :
    ((done ++ bs).map Block.name).Nodup := by
  induction bs generalizing done with
  | nil => rwa [List.append_nil]
  | cons b bs ih =>
    rw [List.foldlM_cons, bind_eq_ok] at h
    obtain ⟨d', hd', h⟩ := h
    have hname := name_of_addTable hd'
    cases (addTable_draft hname).symm.trans hd'
    rw [List.append_cons]
    apply ih (done ++ [b]) _ h
    rw [List.map_append, List.nodup_append]
    refine ⟨hdone, List.nodup_singleton _, ?_⟩
    intro a ha c hc he
    rw [List.map_singleton, List.mem_singleton] at hc
    exact hname (hc ▸ he ▸ ha)

/-! ### Columns -/

/-- A column is added only with a known type, and beside columns with other names. -/
theorem apart_of_addColumn (hk : k.blockIds.Nodup) (hid : r.table ∈ k.blockIds) {d : Draft}
    (h : addColumn (k.tablePlace r.table) k.draft r = .ok d) :
    (∃ type, DataType.ofCode? r.typeCode = some type) ∧ ∀ r' ∈ k.rows, Apart r' r := by
  simp only [addColumn, draft, bind_eq_ok, found_eq_ok, accepted_eq_ok,
    Schema.addField_eq_ok_iff] at h
  obtain ⟨type, htype, _, ⟨t, ht, hfresh, -⟩, -⟩ := h
  refine ⟨⟨type, htype⟩, ?_⟩
  intro r' hr' htable
  obtain ⟨b, hb, hbr⟩ := List.mem_map.1 hid
  cases (hbr ▸ table?_tablePlace hk hb).symm.trans ht
  obtain ⟨i, hi⟩ := List.mem_iff_getElem?.1 hr'
  have hcolumn : (⟨i⟩ : FieldId) ∈ (k.table b).columns :=
    mem_columns.2 ⟨r', hi, htable.trans hbr.symm⟩
  apply hfresh ⟨i⟩ hcolumn (k.field r')
  simp [Schema.field?, schema, hi]

theorem apart_of_foldlM (hk : k.blockIds.Nodup) {id : Nat} (hid : id ∈ k.blockIds)
    (hforeign : ∀ n, k.foreign n = none) {rs : List Row} (htable : ∀ r ∈ rs, r.table = id)
    (hrows : k.rows.Pairwise Apart) {d : Draft}
    (h : rs.foldlM (addColumn (k.tablePlace id)) k.draft = .ok d) :
    (∀ r ∈ rs, ∃ type, DataType.ofCode? r.typeCode = some type) ∧
      (k.rows ++ rs).Pairwise Apart := by
  induction rs generalizing k with
  | nil =>
    rw [List.append_nil]
    exact ⟨fun r hr => absurd hr List.not_mem_nil, hrows⟩
  | cons r rs ih =>
    rw [List.foldlM_cons, bind_eq_ok] at h
    obtain ⟨d', hd', h⟩ := h
    have hrid : r.table = id := htable r List.mem_cons_self
    rw [← hrid] at hd'
    obtain ⟨⟨type, hr⟩, hname⟩ := apart_of_addColumn hk (hrid ▸ hid) hd'
    cases (addColumn_draft hk (hrid ▸ hid) (hforeign r.id) hr hname).symm.trans hd'
    have hpush : (k.withRows [r]).rows.Pairwise Apart :=
      List.pairwise_append.2 ⟨hrows, List.pairwise_singleton _ _, fun r' hr' s hs =>
        List.mem_singleton.1 hs ▸ hname r' hr'⟩
    obtain ⟨htypes, hapart⟩ := ih (k := k.withRows [r]) hk hid hforeign
      (fun r' hr' => htable r' (List.mem_cons_of_mem _ hr')) hpush h
    refine ⟨List.forall_mem_cons.2 ⟨⟨type, hr⟩, htypes⟩, ?_⟩
    rw [List.append_cons]
    exact hapart

/-! ### Filled tables -/

theorem fits_of_fillTable (hids : (rows.map Row.id).Nodup) (hk : k.blockIds.Nodup)
    (hid : b.id ∈ k.blockIds) (hforeign : ∀ n, k.foreign n = none) (hrows : k.rows.Pairwise Apart)
    {d : Draft} (h : fillTable rows k.draft b = .ok d) :
    Fits k.blockIds rows b ∧ (k.rows ++ ownRows rows b).Pairwise Apart := by
  simp only [fillTable, draft, bind_eq_ok, recorded_eq_ok] at h
  obtain ⟨t, ht, s, hs, listed, hlisted, hcolumns⟩ := h
  cases (lookup_tables hk hid).symm.trans ht
  have hrelated : ∀ n ∈ b.related, n ∈ k.blockIds := by
    intro n hn
    obtain ⟨_, _, hstep⟩ := exists_of_foldlM hs n hn
    simp only [addRelated, bind_eq_ok, found_eq_ok] at hstep
    obtain ⟨other, hother, -⟩ := hstep
    exact (mem_of_lookup_tables hk hother).1
  have hnative : ∀ n ∈ b.native, ∃ r ∈ rows, r.id = n ∧ r.table = b.id := by
    intro n hn
    obtain ⟨r, hr⟩ := mapM_isOk.1 ⟨listed, hlisted⟩ n hn
    exact ⟨r, (find?_row hids).1 (found_eq_ok.1 hr)⟩
  cases (foldlM_addRelated (b := b) hk hid b.related hrelated).symm.trans hs
  cases (mapM_nativeRow hnative).symm.trans hlisted
  obtain ⟨htypes, hapart⟩ := apart_of_foldlM (k := k.withRelated b.id b.related) hk hid hforeign
    (fun r hr => ((mem_ownRows (b := b) hids).1 hr).2) hrows hcolumns
  exact ⟨⟨hrelated, hnative, htypes⟩, hapart⟩

theorem fits_of_foldlM (hids : (rows.map Row.id).Nodup) {bs : List Block} (hk : k.blockIds.Nodup)
    (hbs : ∀ b ∈ bs, b.id ∈ k.blockIds) (hforeign : ∀ n, k.foreign n = none)
    (hrows : k.rows.Pairwise Apart) {d : Draft}
    (h : bs.foldlM (fillTable rows) k.draft = .ok d) :
    (∀ b ∈ bs, Fits k.blockIds rows b) ∧
      (k.rows ++ bs.flatMap (ownRows rows)).Pairwise Apart := by
  induction bs generalizing k with
  | nil =>
    rw [List.flatMap_nil, List.append_nil]
    exact ⟨fun b hb => absurd hb List.not_mem_nil, hrows⟩
  | cons b bs ih =>
    rw [List.foldlM_cons, bind_eq_ok] at h
    obtain ⟨d', hd', h⟩ := h
    have hid := hbs b List.mem_cons_self
    obtain ⟨hfits, hapart⟩ := fits_of_fillTable hids hk hid hforeign hrows hd'
    cases (fillTable_draft hids hk hid hforeign hfits hapart).symm.trans hd'
    obtain ⟨hrest, hall⟩ := ih (k := k.filled rows b) hk
      (fun c hc => hbs c (List.mem_cons_of_mem _ hc)) hforeign hapart h
    refine ⟨List.forall_mem_cons.2 ⟨hfits, hrest⟩, ?_⟩
    rw [List.flatMap_cons, ← List.append_assoc]
    exact hall

/-! ### References -/

theorem reference_of_bindRow (hk : k.blockIds.Nodup) (hrows : k.rowIds.Nodup)
    (howners : ∀ r ∈ k.rows, r.table ∈ k.blockIds) {s : Schema}
    (h : bindRow k.places k.schema r = .ok s) {ref : Reference} (href : r.foreign = some ref) :
    ∃ r' ∈ k.rows, r'.id = ref.field ∧ r'.table = ref.table := by
  simp only [bindRow, href, bind_eq_ok, recorded_eq_ok, found_eq_ok] at h
  obtain ⟨_, -, target, htarget, g, hg, h⟩ := h
  obtain ⟨hfield, rfl⟩ := mem_of_lookup_fields hrows htarget
  obtain ⟨r', hr', hid⟩ := List.mem_map.1 hfield
  rw [← hid, field?_fieldPlace hrows hr'] at hg
  cases hg
  refine ⟨r', hr', hid, ?_⟩
  split at h
  · rename_i htable
    obtain ⟨-, hplace⟩ := mem_of_lookup_tables hk htable
    exact (List.idxOf_inj (howners r' hr')).1 (congrArg TableId.index hplace)
  · cases h

theorem references_of_foldlM {rs : List Row} (hk : k.blockIds.Nodup) (hrows : k.rowIds.Nodup)
    (howners : ∀ r ∈ k.rows, r.table ∈ k.blockIds) (hr : ∀ r ∈ rs, r ∈ k.rows) {s : Schema}
    (h : rs.foldlM (bindRow k.places) k.schema = .ok s) :
    ∀ r ∈ rs, ∀ ref, r.foreign = some ref →
      ∃ r' ∈ k.rows, r'.id = ref.field ∧ r'.table = ref.table := by
  induction rs generalizing k with
  | nil => exact fun r hr => absurd hr List.not_mem_nil
  | cons r rs ih =>
    rw [List.foldlM_cons, bind_eq_ok] at h
    obtain ⟨s', hs', h⟩ := h
    have href : ∀ ref, r.foreign = some ref →
        ∃ r' ∈ k.rows, r'.id = ref.field ∧ r'.table = ref.table :=
      fun ref href => reference_of_bindRow hk hrows howners hs' href
    cases (bindRow_draft hk hrows howners (hr r List.mem_cons_self) href).symm.trans hs'
    obtain ⟨hblocks, hkrows⟩ := withReference_frame k r
    have hplaces : (k.withReference r).places = k.places := by
      simp only [places, blockIds, rowIds, hblocks, hkrows]
    have htail := ih (k := k.withReference r) (by rwa [blockIds, hblocks])
      (by rwa [rowIds, hkrows]) (by rwa [blockIds, hblocks, hkrows])
      (fun r' hr' => hkrows ▸ hr r' (List.mem_cons_of_mem _ hr')) (hplaces ▸ h)
    rw [hkrows] at htail
    exact List.forall_mem_cons.2 ⟨href, htail⟩

/-! ### Files -/

theorem nodup_of_apart (h : rows.Pairwise Apart) : rows.Nodup := by
  apply h.imp
  rintro r _ hapart rfl
  exact hapart rfl rfl

theorem eq_of_apart (h : rows.Pairwise Apart) {r' : Row} (hr : r ∈ rows) (hr' : r' ∈ rows)
    (htable : r.table = r'.table) (hname : r.name = r'.name) : r = r' := by
  have hsymm : Std.Symm Apart := ⟨fun a b hab ht hn => hab ht.symm hn.symm⟩
  by_contra hne
  exact h.forall hr hr' hne htable hname

/-- A number listed twice would make two columns of one name. -/
theorem nodup_native (hids : (rows.map Row.id).Nodup)
    (hnative : ∀ n ∈ b.native, ∃ r ∈ rows, r.id = n ∧ r.table = b.id)
    (h : (ownRows rows b).Pairwise Apart) : b.native.Nodup := by
  have hkeys : ((ownRows rows b).map Row.id).Nodup := by
    apply (nodup_of_apart h).map_on
    intro r hr r' hr' he
    exact eq_of_key_eq hids ((mem_ownRows hids).1 hr).1 ((mem_ownRows hids).1 hr').1 he
  rw [map_id_ownRows hnative] at hkeys
  exact hkeys.of_append_left

/-- Where blocks and rows have numbers of their own, only a consistent file is accepted. -/
theorem consistent_of_toSchema {file : SaveFile} {s : Schema}
    (hblocks : (file.blocks.map Block.id).Nodup) (hids : (file.rows.map Row.id).Nodup)
    (h : file.toSchema = .ok s) : Consistent file := by
  simp only [toSchema, bind_eq_ok] at h
  obtain ⟨draft, htables, _, howners, filled, hfill, hbind⟩ := h
  have hnames : (file.blocks.map Block.name).Nodup :=
    names_of_foldlM [] List.nodup_nil htables
  cases (foldlM_addTable file.blocks [] hnames).symm.trans htables
  have howner : ∀ r ∈ file.rows, r.table ∈ file.blocks.map Block.id := by
    intro r hr
    obtain ⟨t, ht⟩ := checkOwner_eq_ok.1 (forM_eq_ok.1 howners r hr)
    exact (mem_of_lookup_tables (k := { blocks := file.blocks }) hblocks ht).1
  have hbs : ∀ b ∈ file.blocks, b.id ∈ file.blocks.map Block.id :=
    fun b hb => List.mem_map_of_mem hb
  obtain ⟨hfits, hapart⟩ := fits_of_foldlM (k := { blocks := file.blocks }) hids hblocks hbs
    (fun _ => rfl) List.Pairwise.nil hfill
  cases (foldlM_fillTable (k := { blocks := file.blocks }) hids file.blocks hblocks hbs
    (fun _ => rfl) hfits hapart).symm.trans hfill
  rw [List.nil_append] at hapart
  have hplaced (r : Row) : r ∈ placedRows file ↔ r ∈ file.rows := mem_placedRows hids howner
  have hrows : ((placedRows file).map Row.id).Nodup := by
    apply (nodup_of_apart hapart).map_on
    intro r hr r' hr' he
    exact eq_of_key_eq hids ((hplaced r).1 hr) ((hplaced r').1 hr') he
  have hreferences := references_of_foldlM (k := listed file)
    (by rwa [blockIds, listed_eq]) (by rwa [rowIds, listed_eq])
    (by
      rw [blockIds, listed_eq]
      exact fun r hr => howner r ((hplaced r).1 hr))
    (by
      rw [listed_eq]
      exact fun r hr => (hplaced r).2 hr) hbind
  rw [listed_eq] at hreferences
  exact
    { blockIds := hblocks
      rowIds := hids
      tableNames := hnames
      owners := howner
      related := fun b hb => (hfits b hb).related
      native := fun b hb => (hfits b hb).native
      nativeOnce := fun b hb => nodup_native hids (hfits b hb).native
        ((List.pairwise_flatMap.1 hapart).1 b hb)
      typeCodes := by
        intro r hr
        obtain ⟨b, hb, hid⟩ := List.mem_map.1 (howner r hr)
        exact (hfits b hb).typeCodes r ((mem_ownRows hids).2 ⟨hr, hid.symm⟩)
      fieldNames := fun r hr r' hr' =>
        eq_of_apart hapart ((hplaced r).2 hr) ((hplaced r').2 hr')
      references := by
        intro r hr ref href
        obtain ⟨r', hr', he⟩ := hreferences r hr ref href
        exact ⟨r', (hplaced r').1 hr', he⟩ }

end Schemata.SaveFile
