import Schemata.Proofs.Outcome
import Schemata.Proofs.SaveFile.Assembly
import Mathlib.Data.List.Pairwise
import Mathlib.Data.List.Perm.Subperm

/-!
# Where rows are placed

A block places the rows of its table: for each number that it lists the first row under that number,
then the rows under other numbers. Rows may share numbers, and so may blocks.
-/
namespace Schemata.SaveFile
variable {rows : List Row} {file : SaveFile} {b : Block} {r : Row}

theorem ownRows_of_mapM {listed : List Row}
    (h : b.native.mapM (nativeRow rows b) = .ok listed) :
    listed ++ unlistedRows rows b = ownRows rows b := by
  have hfind : List.Forall₂
      (fun n r => (rows.find? fun r => r.id == n && r.table == b.id) = some r) b.native listed :=
    (forall₂_of_mapM h).imp fun _ _ hr => found_eq_ok.1 hr
  rw [ownRows, filterMap_of_forall₂ hfind]

theorem of_mem_ownRows (h : r ∈ ownRows rows b) : r ∈ rows ∧ r.table = b.id := by
  rcases List.mem_append.1 h with h | h
  · obtain ⟨n, -, hr⟩ := List.mem_filterMap.1 h
    have hp := List.find?_some hr
    simp only [Bool.and_eq_true, beq_iff_eq] at hp
    exact ⟨List.mem_of_find?_eq_some hr, hp.2⟩
  · have hp := List.mem_filter.1 h
    simp only [Bool.and_eq_true, beq_iff_eq] at hp
    exact ⟨hp.1, hp.2.1⟩

/-- Listed or not, the first row under a number is placed. -/
theorem mem_ownRows_of_find? {n : Nat}
    (h : (rows.find? fun r => r.id == n && r.table == b.id) = some r) : r ∈ ownRows rows b := by
  have hp := List.find?_some h
  simp only [Bool.and_eq_true, beq_iff_eq] at hp
  by_cases hn : n ∈ b.native
  · exact List.mem_append_left _ (List.mem_filterMap.2 ⟨n, hn, h⟩)
  · apply List.mem_append_right
    rw [unlistedRows, List.mem_filter]
    exact ⟨List.mem_of_find?_eq_some h, by simp [hp, hn]⟩

theorem exists_find? (hr : r ∈ rows) (hb : r.table = b.id) :
    ∃ r', (rows.find? fun r' => r'.id == r.id && r'.table == b.id) = some r' := by
  apply Option.isSome_iff_exists.1
  rw [List.find?_isSome]
  exact ⟨r, hr, by simp [hb]⟩

/-- Some row under its number is placed in its place, if not the row itself. -/
theorem exists_ownRow (hr : r ∈ rows) (hb : r.table = b.id) :
    ∃ r' ∈ ownRows rows b, r'.id = r.id := by
  obtain ⟨r', hr'⟩ := exists_find? hr hb
  have hp := List.find?_some hr'
  simp only [Bool.and_eq_true, beq_iff_eq] at hp
  exact ⟨r', mem_ownRows_of_find? hr', hp.1⟩

theorem placedRows_subset (file : SaveFile) : placedRows file ⊆ file.rows := by
  intro r hr
  obtain ⟨b, -, hr⟩ := List.mem_flatMap.1 hr
  exact (of_mem_ownRows hr).1

/-! ### Placing each row once -/

/-- No block lists a number that two rows of its table have. -/
def ListsRowsOnce (file : SaveFile) : Prop :=
  file.rows.Pairwise fun r r' => r.table = r'.table → r.id = r'.id →
    ∀ b ∈ file.blocks, b.id = r.table → r.id ∉ b.native

instance (file : SaveFile) : Decidable (ListsRowsOnce file) :=
  inferInstanceAs (Decidable (List.Pairwise _ _))

theorem ListsRowsOnce.not_mem (h : ListsRowsOnce file) {r' : Row} (hr : r ∈ file.rows)
    (hr' : r' ∈ file.rows) (hne : r ≠ r') (htable : r.table = r'.table) (hid : r.id = r'.id)
    (hb : b ∈ file.blocks) (hbr : b.id = r.table) : r.id ∉ b.native := by
  have hsymm : Std.Symm fun r r' : Row => r.table = r'.table → r.id = r'.id →
      ∀ b ∈ file.blocks, b.id = r.table → r.id ∉ b.native :=
    ⟨fun r r' h ht hi b hb hbr => hi ▸ h ht.symm hi.symm b hb (hbr.trans ht)⟩
  exact List.Pairwise.forall h hr hr' hne htable hid b hb hbr

/-- Where no row is placed twice, rows name one block only. -/
theorem place_of_block (hplaced : (placedRows file).Nodup) (hr : r ∈ file.rows) {i j : Nat}
    {c : Block} (hb : file.blocks[i]? = some b) (hc : file.blocks[j]? = some c)
    (hbr : b.id = r.table) (hcr : c.id = r.table) : i = j := by
  have hapart := List.pairwise_iff_getElem.1 (List.nodup_flatMap.1 hplaced).2
  obtain ⟨hi, rfl⟩ := List.getElem?_eq_some_iff.1 hb
  obtain ⟨hj, rfl⟩ := List.getElem?_eq_some_iff.1 hc
  -- the first row under a number would be placed by both blocks
  obtain ⟨r', hr'⟩ := exists_find? hr hbr.symm
  have hown := mem_ownRows_of_find? hr'
  rw [hbr, ← hcr] at hr'
  have hown' := mem_ownRows_of_find? hr'
  rcases Nat.lt_trichotomy i j with hij | hij | hij
  · exact (hapart i j hi hj hij hown hown').elim
  · exact hij
  · exact (hapart j i hj hi hij hown' hown).elim

theorem block_unique (hplaced : (placedRows file).Nodup) (hr : r ∈ file.rows) {c : Block}
    (hb : b ∈ file.blocks) (hc : c ∈ file.blocks) (hbr : b.id = r.table) (hcr : c.id = r.table) :
    b = c := by
  obtain ⟨i, hi⟩ := List.mem_iff_getElem?.1 hb
  obtain ⟨j, hj⟩ := List.mem_iff_getElem?.1 hc
  cases place_of_block hplaced hr hi hj hbr hcr
  exact Option.some.inj (hi.symm.trans hj)

/-- A listed number places just the first row under it. -/
theorem find?_of_mem_ownRows (hr : r ∈ ownRows rows b) (hn : r.id ∈ b.native) :
    (rows.find? fun r' => r'.id == r.id && r'.table == b.id) = some r := by
  rcases List.mem_append.1 hr with hr | hr
  · obtain ⟨n, -, hr⟩ := List.mem_filterMap.1 hr
    have hp := List.find?_some hr
    simp only [Bool.and_eq_true, beq_iff_eq] at hp
    rw [hp.1]
    exact hr
  · simp [unlistedRows, hn] at hr

theorem listsRowsOnce_of_perm (hplaced : (placedRows file).Nodup)
    (hperm : (placedRows file).Perm file.rows) : ListsRowsOnce file := by
  apply (hperm.nodup_iff.1 hplaced).pairwise_of_forall_ne
  intro r hr r' hr' hne htable hid b hb hbr hn
  have hown {r : Row} (hr : r ∈ file.rows) (hbr : b.id = r.table) : r ∈ ownRows file.rows b := by
    obtain ⟨c, hc, hrc⟩ := List.mem_flatMap.1 (hperm.mem_iff.2 hr)
    rwa [block_unique hplaced hr hb hc hbr (of_mem_ownRows hrc).2.symm]
  have hfind := find?_of_mem_ownRows (hown hr hbr) hn
  have hfind' := find?_of_mem_ownRows (hown hr' (hbr.trans htable)) (hid ▸ hn)
  rw [← hid, hfind] at hfind'
  exact hne (Option.some.inj hfind')

theorem perm_of_listsRowsOnce (hplaced : (placedRows file).Nodup)
    (howners : ∀ r ∈ file.rows, ∃ b ∈ file.blocks, b.id = r.table) (h : ListsRowsOnce file) :
    (placedRows file).Perm file.rows := by
  have hmem : ∀ r ∈ file.rows, r ∈ placedRows file := by
    intro r hr
    obtain ⟨b, hb, hbr⟩ := howners r hr
    obtain ⟨r', hr'⟩ := exists_find? hr hbr.symm
    have hp := List.find?_some hr'
    simp only [Bool.and_eq_true, beq_iff_eq] at hp
    apply List.mem_flatMap.2 ⟨b, hb, ?_⟩
    by_cases he : r = r'
    · exact he ▸ mem_ownRows_of_find? hr'
    · have hn := h.not_mem hr (List.mem_of_find?_eq_some hr') he (hbr.symm.trans hp.2.symm)
        hp.1.symm hb hbr
      exact List.mem_append_right _ (List.mem_filter.2 ⟨hr, by simp [hbr, hn]⟩)
  have hrows : file.rows.Nodup := by
    rw [List.nodup_iff_sublist]
    intro r hsub
    have hr : r ∈ file.rows := hsub.subset List.mem_cons_self
    obtain ⟨b, hb, hbr⟩ := howners r hr
    have hn : r.id ∉ b.native :=
      (List.pairwise_pair.1 (h.sublist hsub)) rfl rfl b hb hbr
    -- a row that stands twice is unlisted and so placed twice
    have htwice : [r, r].Sublist (unlistedRows file.rows b) := by
      have hfilter := hsub.filter fun row => row.table == b.id && !b.native.contains row.id
      simpa [unlistedRows, hbr, hn] using hfilter
    have hunlisted : (unlistedRows file.rows b).Nodup :=
      (List.nodup_append.1 ((List.nodup_flatMap.1 hplaced).1 b hb)).2.1
    exact List.nodup_iff_sublist.1 hunlisted r htwice
  rw [List.perm_ext_iff_of_nodup hplaced hrows]
  exact fun r => ⟨fun hr => placedRows_subset file hr, hmem r⟩

/-- Every row is placed exactly if as many are placed as there are. -/
theorem length_placedRows_iff (hplaced : (placedRows file).Nodup)
    (howners : ∀ r ∈ file.rows, ∃ b ∈ file.blocks, b.id = r.table) :
    (placedRows file).length = file.rows.length ↔ ListsRowsOnce file := by
  constructor
  · intro hlength
    apply listsRowsOnce_of_perm hplaced
    exact (hplaced.subperm (placedRows_subset file)).perm_of_length_le (Nat.le_of_eq hlength.symm)
  · exact fun h => (perm_of_listsRowsOnce hplaced howners h).length_eq

end Schemata.SaveFile
