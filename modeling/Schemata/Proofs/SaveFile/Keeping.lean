import Schemata.Proofs.SaveFile.Columns
import Schemata.Proofs.SaveFile.Description
import Schemata.Proofs.SaveFile.Rows

/-!
# Which files keep their rows

Rows that share a number can get in each other's way. A number that a block lists stands for the
first row under it only, and a reference is attached to the field of the last row under the number.
Where neither matters, each row has a field of its own with its reference; and only there.
-/
namespace Schemata.SaveFile
open Schema

/-- The field has the name and the default of the row and stands in the table that the row names. -/
def Owns (file : SaveFile) (s : Schema) (r : Row) (p : FieldId) : Prop :=
  ∃ f, s.field? p = some f ∧ f.name = r.name ∧ f.default = r.default ∧
    ∃ b ∈ file.blocks, b.id = r.table ∧ ∃ t, s.table? f.table = some t ∧ t.name = b.name

/-- There are as many fields as rows, each row has one, and that one references the field of the row
that this row references, or nothing if it references none. -/
structure KeepsRows (file : SaveFile) (s : Schema) : Prop where
  count : s.fields.length = file.rows.length
  fields : ∀ r ∈ file.rows, ∃ p, Owns file s r p
  unbound : ∀ r ∈ file.rows, r.foreign = none →
    ∀ p f, Owns file s r p → s.field? p = some f → f.foreign = none
  bound : ∀ r ∈ file.rows, ∀ ref, r.foreign = some ref →
    ∀ p f, Owns file s r p → s.field? p = some f → ∃ r' ∈ file.rows, r'.id = ref.field ∧
      r'.table = ref.table ∧ ∃ q, Owns file s r' q ∧ f.foreign = some q

/-- Of the rows under one number, in the order of the fields, only the last one has a reference. -/
def BindsLastRows (file : SaveFile) : Prop :=
  (placedRows file).Pairwise fun r r' => r.foreign.isSome = true → r'.id ≠ r.id

instance (file : SaveFile) : Decidable (BindsLastRows file) :=
  inferInstanceAs (Decidable (List.Pairwise _ _))

variable {file : SaveFile} {draft : Draft} {s : Schema} {r r' : Row} {p : FieldId} {i j : Nat}

namespace Assembled

/-! ### The field of a row -/

theorem place_eq_of_name (h : Assembled file draft s) (hr : (placedRows file)[i]? = some r)
    (hr' : (placedRows file)[j]? = some r') (htable : r.table = r'.table)
    (hname : r.name = r'.name) : i = j := by
  obtain ⟨f, hf, hfr⟩ := getElem?_of_forall₂ h.attached.fields hr
  obtain ⟨g, hg, hgr⟩ := getElem?_of_forall₂ h.attached.fields hr'
  have htables : f.table = g.table := by
    have ht := hfr.table
    rw [htable, hgr.table] at ht
    exact (Option.some.inj ht).symm
  have hnames : f.name = g.name := hfr.name.trans (hname.trans hgr.name.symm)
  exact congrArg FieldId.index (h.layout.eq_of_name (f := ⟨i⟩) (g := ⟨j⟩) hf hg htables hnames)

/-- A row that were placed twice would make two columns of one name. -/
theorem nodup_placedRows (h : Assembled file draft s) : (placedRows file).Nodup := by
  rw [List.nodup_iff_getElem?_ne_getElem?]
  intro i j hij hj he
  have hr := List.getElem?_eq_getElem hj
  exact Nat.ne_of_lt hij (h.place_eq_of_name (he.trans hr) hr rfl rfl)

theorem count (h : Assembled file draft s) : s.fields.length = (placedRows file).length :=
  h.attached.fields.length_eq.symm

/-- The table of a field is made of a block that the row of the field names. -/
theorem exists_table (h : Assembled file draft s) {f : Field} (hf : Becomes file r f) :
    ∃ b, file.blocks[f.table.index]? = some b ∧ b.id = r.table ∧
      ∃ t, s.table? f.table = some t ∧ t.name = b.name := by
  obtain ⟨b, hb, hid⟩ := exists_block_of_tableOf hf.table
  have hname := congrArg (fun names => names[f.table.index]?) h.attached.names
  simp only [List.getElem?_map, hb, Option.map_some, Option.map_eq_some_iff] at hname
  exact ⟨b, hb, hid, hname⟩

theorem owns_of_placed (h : Assembled file draft s) (hr : (placedRows file)[i]? = some r) :
    Owns file s r ⟨i⟩ := by
  obtain ⟨f, hf, hbecomes⟩ := getElem?_of_forall₂ h.attached.fields hr
  obtain ⟨b, hb, hid, ht⟩ := h.exists_table hbecomes
  exact ⟨f, hf, hbecomes.name, hbecomes.default, b, List.mem_of_getElem? hb, hid, ht⟩

theorem eq_of_owns (h : Assembled file draft s) (hr : (placedRows file)[i]? = some r)
    (hp : Owns file s r p) : p = ⟨i⟩ := by
  obtain ⟨g, hg, hgname, -, b, hb, hid, t, ht, htname⟩ := hp
  obtain ⟨f, hf, hbecomes⟩ := getElem?_of_forall₂ h.attached.fields hr
  obtain ⟨b', hb', hid', t', ht', htname'⟩ := h.exists_table hbecomes
  have hmem : r ∈ file.rows := placedRows_subset file (List.mem_of_getElem? hr)
  cases block_unique h.nodup_placedRows hmem hb (List.mem_of_getElem? hb') hid hid'
  have htables : g.table = f.table := by
    have hname {table : TableId} {t : Table} (ht : s.table? table = some t) (hn : t.name = b.name) :
        (s.tables.map (·.name)).idxOf b.name = table.index :=
      idxOf_of_getElem? h.layout.names (List.getElem?_map.trans (by
        rw [← hn]
        exact congrArg _ ht))
    exact congrArg TableId.mk ((hname ht htname).symm.trans (hname ht' htname'))
  exact h.layout.eq_of_name (g := ⟨i⟩) hg hf htables (hgname.trans hbecomes.name.symm)

/-! ### The references of rows -/

/-- A field that references another one is that of the last row under the number of a row with a
reference. -/
theorem exists_binding (h : Assembled file draft s) {f : Field} {g : FieldId}
    (hr : (placedRows file)[i]? = some r) (hf : s.field? ⟨i⟩ = some f) (hg : f.foreign = some g) :
    ∃ r₀ ∈ file.rows, ∃ ref, r₀.foreign = some ref ∧ r₀.id = r.id ∧
      (∀ j r', (placedRows file)[j]? = some r' → r'.id = r.id → j ≤ i) ∧
      ∃ r', (placedRows file)[g.index]? = some r' ∧ r'.id = ref.field ∧ r'.table = ref.table := by
  obtain ⟨r₀, hr₀, ref, href, hlookup, htarget⟩ := h.attached.sound ⟨i⟩ f g hf hg
  obtain ⟨r', hr', hid, hlast⟩ := h.placed.lookup_eq_some.1 hlookup
  cases hr.symm.trans hr'
  exact ⟨r₀, hr₀, ref, href, hid.symm, fun j r' hr' hid' => hlast j r' hr' (hid'.trans hid),
    htarget⟩

theorem bindsLastRows_of_keepsRows (h : Assembled file draft s) (hk : KeepsRows file s) :
    BindsLastRows file := by
  rw [BindsLastRows, List.pairwise_iff_getElem]
  intro i j hi hj hij hforeign hid
  have hri := List.getElem?_eq_getElem hi
  have hmem : (placedRows file)[i] ∈ file.rows := placedRows_subset file (List.getElem_mem hi)
  obtain ⟨ref, href⟩ := Option.isSome_iff_exists.1 hforeign
  have howns := h.owns_of_placed hri
  obtain ⟨f, hf, -⟩ := howns
  obtain ⟨_, -, -, -, q, -, hq⟩ := hk.bound _ hmem ref href ⟨i⟩ f (h.owns_of_placed hri) hf
  obtain ⟨_, -, _, -, -, hlast, -⟩ := h.exists_binding hri hf hq
  exact Nat.not_le_of_lt hij (hlast j _ (List.getElem?_eq_getElem hj) hid)

/-- Where only last rows have references, the row that has bound a field is its own. -/
theorem eq_of_binding (hb : BindsLastRows file) {r₀ : Row} (hr : (placedRows file)[i]? = some r)
    (hr₀ : r₀ ∈ placedRows file) (hforeign : r₀.foreign.isSome = true) (hid : r₀.id = r.id)
    (hlast : ∀ j r', (placedRows file)[j]? = some r' → r'.id = r.id → j ≤ i) : r₀ = r := by
  obtain ⟨k, hk⟩ := List.mem_iff_getElem?.1 hr₀
  obtain ⟨hi, rfl⟩ := List.getElem?_eq_some_iff.1 hr
  rcases Nat.lt_or_eq_of_le (hlast k r₀ hk hid) with hki | rfl
  · obtain ⟨hlt, rfl⟩ := List.getElem?_eq_some_iff.1 hk
    exact absurd hid.symm (List.pairwise_iff_getElem.1 hb k i hlt hi hki hforeign)
  · exact Option.some.inj (hk.symm.trans hr)

theorem foreign_eq_none (h : Assembled file draft s) (hbind : BindsLastRows file)
    (hall : ∀ r ∈ file.rows, r ∈ placedRows file) {f : Field}
    (hr : (placedRows file)[i]? = some r) (hf : s.field? ⟨i⟩ = some f)
    (hforeign : r.foreign = none) : f.foreign = none := by
  rw [← Option.not_isSome_iff_eq_none, Option.isSome_iff_exists]
  rintro ⟨g, hg⟩
  obtain ⟨r₀, hr₀, ref, href, hid, hlast, -⟩ := h.exists_binding hr hf hg
  cases eq_of_binding hbind hr (hall r₀ hr₀) (href ▸ rfl) hid hlast
  exact absurd (href.symm.trans hforeign) (Option.some_ne_none ref)

theorem exists_foreign (h : Assembled file draft s) (hbind : BindsLastRows file)
    (hall : ∀ r ∈ file.rows, r ∈ placedRows file) {f : Field} {ref : Reference}
    (hr : (placedRows file)[i]? = some r) (hf : s.field? ⟨i⟩ = some f)
    (href : r.foreign = some ref) : ∃ g r', f.foreign = some g ∧
      (placedRows file)[g.index]? = some r' ∧ r'.id = ref.field ∧ r'.table = ref.table := by
  have hmem : r ∈ file.rows := placedRows_subset file (List.mem_of_getElem? hr)
  obtain ⟨g, hg⟩ : ∃ g, f.foreign = some g := by
    obtain ⟨p', f', g, hlookup, hf', hg⟩ := h.attached.complete r hmem ref href
    obtain ⟨r', hr', hid, hlast⟩ := h.placed.lookup_eq_some.1 hlookup
    -- the number leads to this row, as it is the last one under it
    cases eq_of_binding hbind hr' (hall r hmem) (href ▸ rfl) hid.symm (hid ▸ hlast)
    have hp' : p' = ⟨i⟩ := congrArg FieldId.mk (h.place_eq_of_name hr' hr rfl rfl)
    rw [hp', hf] at hf'
    exact ⟨g, Option.some.inj hf' ▸ hg⟩
  obtain ⟨r₀, hr₀, ref₀, href₀, hid, hlast, r', hr', htarget⟩ := h.exists_binding hr hf hg
  cases eq_of_binding hbind hr (hall r₀ hr₀) (href₀ ▸ rfl) hid hlast
  cases href.symm.trans href₀
  exact ⟨g, r', hg, hr', htarget⟩

theorem keepsRows (h : Assembled file draft s) (hlist : ListsRowsOnce file)
    (hbind : BindsLastRows file) : KeepsRows file s := by
  have hperm := perm_of_listsRowsOnce h.nodup_placedRows h.owners hlist
  have hall (r : Row) (hr : r ∈ file.rows) : r ∈ placedRows file := hperm.mem_iff.2 hr
  have hplace {r : Row} (hr : r ∈ file.rows) : ∃ i, (placedRows file)[i]? = some r :=
    List.mem_iff_getElem?.1 (hall r hr)
  refine ⟨h.count.trans hperm.length_eq, ?_, ?_, ?_⟩
  · intro r hr
    obtain ⟨i, hi⟩ := hplace hr
    exact ⟨⟨i⟩, h.owns_of_placed hi⟩
  · intro r hr hforeign p f hp hf
    obtain ⟨i, hi⟩ := hplace hr
    cases h.eq_of_owns hi hp
    exact h.foreign_eq_none hbind hall hi hf hforeign
  · intro r hr ref href p f hp hf
    obtain ⟨i, hi⟩ := hplace hr
    cases h.eq_of_owns hi hp
    obtain ⟨g, r', hg, hr', hid, htable⟩ := h.exists_foreign hbind hall hi hf href
    have hmem := placedRows_subset file (List.mem_of_getElem? hr')
    exact ⟨r', hmem, hid, htable, g, h.owns_of_placed hr', hg⟩

theorem keepsRows_iff (h : Assembled file draft s) :
    KeepsRows file s ↔ ListsRowsOnce file ∧ BindsLastRows file := by
  constructor
  · intro hk
    refine ⟨?_, h.bindsLastRows_of_keepsRows hk⟩
    exact (length_placedRows_iff h.nodup_placedRows h.owners).1 (h.count.symm.trans hk.count)
  · exact fun hk => h.keepsRows hk.1 hk.2

/-- Rows with numbers of their own are all kept. -/
theorem keepsRows_of_nodup (h : Assembled file draft s) (hids : (file.rows.map Row.id).Nodup) :
    KeepsRows file s := by
  apply h.keepsRows
  · rw [List.nodup_iff_pairwise_ne, List.pairwise_map] at hids
    exact hids.imp fun hne _ hid => absurd hid hne
  · apply h.nodup_placedRows.pairwise_of_forall_ne
    intro r hr r' hr' hne _ hid
    exact hne (eq_of_key_eq hids (placedRows_subset file hr) (placedRows_subset file hr') hid.symm)

end Assembled

/-! ### Texts -/

/-- The rows of an accepted text are its lines that are not blank, after the blocks. They are all
kept exactly if no block lists a number that two rows of its table have and only last rows have
references; numbers that no two rows have are enough for that. -/
theorem readSchema_keepsRows_iff (text : String) (s : Schema) (h : readSchema text = .ok s) :
    ∃ file, ofText text = .ok file ∧
      List.Forall₂ (fun l r => readRow l = .ok r) (rowLines text) file.rows ∧
      (KeepsRows file s ↔ ListsRowsOnce file ∧ BindsLastRows file) ∧
      ((file.rows.map Row.id).Nodup → KeepsRows file s) := by
  obtain ⟨file, hfile, hs⟩ := bind_eq_ok.1 h
  obtain ⟨draft, hassembled⟩ := assembled_of_toSchema hs
  exact ⟨file, hfile, rowLines_of_ofText hfile, hassembled.keepsRows_iff,
    hassembled.keepsRows_of_nodup⟩

theorem writable_orders : Writable orders := by
  refine ⟨fun b hb => ?_, fun r hr => ?_⟩
  · simp only [orders, List.mem_cons, List.not_mem_nil, or_false] at hb
    rcases hb with rfl | rfl <;> constructor <;> decide
  · simp only [orders, List.mem_cons, List.not_mem_nil, or_false] at hr
    rcases hr with rfl | rfl | rfl | rfl <;> constructor <;> decide

theorem orders_kept : readSchema orders.render = .ok ordersSchema ∧
    (orders.rows.map Row.id).Nodup ∧ KeepsRows orders ordersSchema := by
  have hfile := ofText_render writable_orders
  have hread : readSchema orders.render = .ok ordersSchema := by
    rw [readSchema, hfile]
    rfl
  have hids : (orders.rows.map Row.id).Nodup := by decide
  obtain ⟨file, hfile', -, -, hkeeps⟩ := readSchema_keepsRows_iff orders.render ordersSchema hread
  cases hfile.symm.trans hfile'
  exact ⟨hread, hids, hkeeps hids⟩

/-- Two rows under one number, which their table lists. -/
def twins : SaveFile where
  blocks := [⟨1, "A", [2], [], [0]⟩]
  rows := [⟨2, "x", 1, none, 0, 1, false, false, ""⟩, ⟨2, "y", 1, none, 0, 1, false, false, ""⟩]

theorem writable_twins : Writable twins := by
  refine ⟨fun b hb => ?_, fun r hr => ?_⟩
  · simp only [twins, List.mem_singleton] at hb
    rw [hb]
    constructor <;> decide
  · simp only [twins, List.mem_cons, List.not_mem_nil, or_false] at hr
    rcases hr with rfl | rfl <;> constructor <;> decide

/-- Only the first of the two becomes a field. -/
theorem twins_lost : ∃ s, readSchema twins.render = .ok s ∧ (rowLines twins.render).length = 2 ∧
    s.fields.length = 1 ∧ ∀ f ∈ s.fields, f.name = "x" := by
  have hfile := ofText_render writable_twins
  refine ⟨⟨[{ name := "A", columns := [⟨0⟩] }], [{ name := "x", table := ⟨0⟩ }]⟩, ?_, ?_, rfl, ?_⟩
  · rw [readSchema, hfile]
    rfl
  · exact (rowLines_of_ofText hfile).length_eq
  · exact List.forall_mem_singleton.2 rfl

-- the reference of the one is attached to the field of the other
example : ¬BindsLastRows
    { blocks := [⟨1, "A", [], [], []⟩, ⟨2, "B", [], [], []⟩]
      rows := [⟨3, "a", 1, some ⟨4, 2⟩, 0, 1, false, false, ""⟩,
        ⟨3, "b", 2, none, 0, 1, false, false, ""⟩,
        ⟨4, "c", 2, none, 0, 1, false, false, ""⟩] } := by
  decide

end Schemata.SaveFile
