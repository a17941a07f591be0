import Schemata.Proofs.SaveFile.Reordering

/-!
# Missing rows

A file of which only some rows are left is refused for the first number that a block lists in vain.
In a written file that is the number of the first row that is missing.
-/
namespace Schemata.SaveFile
open Schema Outline Text
variable {file : SaveFile} {rows : List Row} {b : Block} {r : Row}

/-- The numbers that a block lists in vain, as faults. -/
def gaps (rows : List Row) (b : Block) : List ParseError :=
  b.native.flatMap fun n => faultIf (¬∃ r ∈ rows, r.id = n ∧ r.table = b.id)
    (.malformed 0 (.unknownNative b.name n))

theorem gaps_eq_nil :
    gaps rows b = [] ↔ ∀ n ∈ b.native, ∃ r ∈ rows, r.id = n ∧ r.table = b.id := by
  simp only [gaps, List.flatMap_eq_nil_iff, faultIf_eq_nil, not_not]

/-- The first gap of a table. -/
theorem head?_gaps {e : ParseError} (he : (gaps rows b).head? = some e) :
    ∃ before n after, b.native = before ++ n :: after ∧
      (∀ m ∈ before, ∃ r ∈ rows, r.id = m ∧ r.table = b.id) ∧
      (¬∃ r ∈ rows, r.id = n ∧ r.table = b.id) ∧ e = .malformed 0 (.unknownNative b.name n) := by
  obtain ⟨before, n, after, hsplit, hbefore, hn⟩ := head?_flatMap_eq_some.1 he
  simp only [faultIf_eq_nil, not_not] at hbefore
  exact ⟨before, n, after, hsplit, hbefore, mem_faultIf.1 (List.mem_of_head? hn)⟩

theorem judged_nativeRow (rows : List Row) (b : Block) (n : Nat) :
    Judged (faultIf (¬∃ r ∈ rows, r.id = n ∧ r.table = b.id)
      (.malformed 0 (.unknownNative b.name n))) (fun _ => True) (nativeRow rows b n) := by
  unfold nativeRow
  cases hf : rows.find? fun r => r.id == n && r.table == b.id with
  | none =>
    have hno : ¬∃ r ∈ rows, r.id = n ∧ r.table = b.id := by simpa using hf
    rw [faultIf, if_pos hno]
    exact .refused _ []
  | some r =>
    have hp := List.find?_some hf
    simp only [Bool.and_eq_true, beq_iff_eq] at hp
    rw [faultIf, if_neg (not_not.2 ⟨r, List.mem_of_find?_eq_some hf, hp⟩)]
    exact .accepted trivial

theorem judged_natives (rows : List Row) (b : Block) :
    Judged (gaps rows b) (fun _ => True) (b.native.mapM (nativeRow rows b)) :=
  (Judged.mapM fun n _ => judged_nativeRow rows b n).mono fun _ _ => trivial

/-- The tables of the first blocks are filled, and no row of them is missing. -/
def FilledUpTo (file : SaveFile) (rows : List Row) (bs : List Block) (d : Draft) : Prop :=
  d = (bs.foldl (filled rows) { blocks := file.blocks }).draft ∧ ∀ b ∈ bs, gaps rows b = []

/-! ### What is left -/

/-- A number splits the rows of its table where it splits the list of the block. -/
theorem ownRows_split (hc : Consistent file) (h : Exhaustive file) (hb : b ∈ file.blocks)
    {ns ns' : List Nat} {n : Nat} (hnative : b.native = ns ++ n :: ns') :
    ∃ p r q, ownRows file.rows b = p ++ r :: q ∧ p.map Row.id = ns ∧ r.id = n := by
  have hids := map_id_ownRows (hc.native b hb)
  rw [h.unlistedRows_eq_nil hb, List.map_nil, List.append_nil, hnative] at hids
  obtain ⟨p, q, hown, hp, hq⟩ := List.map_eq_append_iff.1 hids
  obtain ⟨r, q, rfl, hr, -⟩ := List.map_eq_cons_iff.1 hq
  exact ⟨p, r, q, hown, hp, hr⟩

section Left
variable (hc : Consistent file) (h : Exhaustive file) (hsub : rows.Sublist file.rows)
include hc h hsub

/-- A table without gaps has all its rows. -/
theorem ownRows_of_gaps_eq_nil (hb : b ∈ file.blocks) (hgaps : gaps rows b = []) :
    ownRows rows b = ownRows file.rows b := by
  have hids := hc.rowIds.sublist (hsub.map Row.id)
  have hfind : ∀ n ∈ b.native, (rows.find? fun r => r.id == n && r.table == b.id) =
      file.rows.find? fun r => r.id == n && r.table == b.id := by
    intro n hn
    obtain ⟨r, hr, hp⟩ := gaps_eq_nil.1 hgaps n hn
    rw [(find?_row hids).2 ⟨hr, hp⟩, (find?_row hc.rowIds).2 ⟨hsub.subset hr, hp⟩]
  have hunlisted : unlistedRows rows b = [] := (h.subset hsub.subset).unlistedRows_eq_nil hb
  rw [ownRows, ownRows, hunlisted, h.unlistedRows_eq_nil hb, List.filterMap_congr hfind]

theorem fits_of_gaps_eq_nil (hb : b ∈ file.blocks) (hgaps : gaps rows b = []) :
    Fits (file.blocks.map Block.id) rows b where
  related := hc.related b hb
  native := gaps_eq_nil.1 hgaps
  typeCodes r hr := by
    rw [ownRows_of_gaps_eq_nil hc h hsub hb hgaps] at hr
    exact (hc.fits hb).typeCodes r hr

theorem ownRows_subset (hb : b ∈ file.blocks) (hgaps : gaps rows b = []) :
    ownRows file.rows b ⊆ rows := by
  rw [← ownRows_of_gaps_eq_nil hc h hsub hb hgaps]
  exact fun r hr => ((mem_ownRows (hc.rowIds.sublist (hsub.map Row.id))).1 hr).1

/-- Nothing is missing where there is no gap. -/
theorem eq_of_gaps_eq_nil (hgaps : ∀ b ∈ file.blocks, gaps rows b = []) : rows = file.rows := by
  apply hsub.eq_of_length_le
  apply (List.subperm_of_subset hc.nodup_rows _).length_le
  intro r hr
  obtain ⟨b, hb, hid⟩ := List.mem_map.1 (hc.owners r hr)
  exact ownRows_subset hc h hsub hb (hgaps b hb) ((mem_ownRows hc.rowIds).2 ⟨hr, hid.symm⟩)

theorem pairwise_apart_left {bs rest : List Block} (hblocks : file.blocks = bs ++ rest)
    (hgaps : ∀ b ∈ bs, gaps rows b = []) : (bs.flatMap (ownRows rows)).Pairwise Apart := by
  have hown : bs.flatMap (ownRows rows) = bs.flatMap (ownRows file.rows) := by
    apply List.flatMap_congr
    intro b hb
    exact ownRows_of_gaps_eq_nil hc h hsub (hblocks ▸ List.mem_append_left rest hb) (hgaps b hb)
  have hall := hc.pairwise_apart
  rw [placedRows, hblocks, List.flatMap_append] at hall
  rw [hown]
  exact (List.pairwise_append.1 hall).1

/-! ### Filling tables -/

/-- The first gap of a table stops it from being filled. -/
theorem judged_fillTable {bs rest : List Block} (hblocks : file.blocks = bs ++ b :: rest)
    {d : Draft} (hd : FilledUpTo file rows bs d) :
    Judged (gaps rows b) (FilledUpTo file rows (bs ++ [b])) (fillTable rows d b) := by
  obtain ⟨rfl, hgaps⟩ := hd
  have hids := hc.rowIds.sublist (hsub.map Row.id)
  have hb : b ∈ file.blocks := by
    rw [hblocks]
    exact List.mem_append_right bs List.mem_cons_self
  have hid : b.id ∈ file.blocks.map Block.id := List.mem_map_of_mem hb
  -- of the outline so far only its blocks and rows matter, not how it relates its tables
  have hk := foldl_filled rows bs { blocks := file.blocks }
  generalize hs : bs.foldl (filled rows) { blocks := file.blocks } = k at hk ⊢
  have hblockIds : k.blockIds = file.blocks.map Block.id := by rw [hk, blockIds]
  have hrows : k.rows = bs.flatMap (ownRows rows) := by rw [hk, List.nil_append]
  have hnodup : k.blockIds.Nodup := hblockIds ▸ hc.blockIds
  rw [← hblockIds] at hid
  apply (judged_natives rows b).carry
  · intro e he
    have hrelated := foldlM_addRelated (b := b) hnodup hid b.related (hblockIds ▸ hc.related b hb)
    simp only [fillTable, draft, lookup_tables hnodup hid, recorded, Bind.bind, Except.bind,
      hrelated, he]
  · intro listed hlisted _
    have hgap := (judged_natives rows b).exists_ok_iff.1 ⟨listed, hlisted⟩
    have hgaps' : ∀ c ∈ bs ++ [b], gaps rows c = [] :=
      List.forall_mem_append.2 ⟨hgaps, List.forall_mem_singleton.2 hgap⟩
    have hapart := pairwise_apart_left hc h hsub (hblocks.trans (List.append_cons ..)) hgaps'
    rw [List.flatMap_append, List.flatMap_singleton, ← hrows] at hapart
    have hfits : Fits k.blockIds rows b := hblockIds ▸ fits_of_gaps_eq_nil hc h hsub hb hgap
    have hforeign : ∀ n, k.foreign n = none := by
      rw [hk]
      exact fun _ => rfl
    refine ⟨_, fillTable_draft hids hnodup hid hforeign hfits hapart, ?_, hgaps'⟩
    rw [List.foldl_append, hs]
    rfl

/-- What is left of a file is accepted exactly if nothing is missing. -/
theorem judged_toSchema : Judged (file.blocks.flatMap (gaps rows)) (fun _ => True)
    (SaveFile.toSchema { file with rows }) := by
  have htables : file.blocks.foldlM addTable ({}, {}) = .ok (draft { blocks := file.blocks }) :=
    foldlM_addTable file.blocks [] hc.tableNames
  have howners : rows.forM (checkOwner (places { blocks := file.blocks })) = .ok () :=
    forM_eq_ok.2 fun r hr => checkOwner_eq_ok.2 ⟨_, lookup_tables (k := { blocks := file.blocks })
      hc.blockIds (hc.owners r (hsub.subset hr))⟩
  have hfill : Judged (file.blocks.flatMap (gaps rows)) (FilledUpTo file rows file.blocks)
      (file.blocks.foldlM (fillTable rows) (draft { blocks := file.blocks })) := by
    rw [← faultsAlong_const (gaps rows) []]
    apply Judged.foldlM_prefix ⟨rfl, fun c hc => absurd hc List.not_mem_nil⟩
    intro bs b rest hblocks d hd
    exact judged_fillTable hc h hsub hblocks hd
  apply hfill.carry
  · intro e he
    change file.blocks.foldlM (fillTable rows) (schema _, places _) = _ at he
    simp only [toSchema, htables, draft, howners, he, Bind.bind, Except.bind]
  · rintro _ - ⟨-, hgaps⟩
    rw [eq_of_gaps_eq_nil hc h hsub hgaps]
    exact ⟨_, toSchema_of_consistent hc, trivial⟩

/-! ### The first missing row -/

/-- The rows before `r` are left, but `r` is not; `b` is the block of its table. -/
structure FirstMissing (file : SaveFile) (rows : List Row) (b : Block) (r : Row) : Prop where
  before : ∃ before after, file.rows = before ++ r :: after ∧ before ⊆ rows
  missing : r ∉ rows
  block : b ∈ file.blocks ∧ b.id = r.table

/-- Where the rows are in the order of their blocks, the first gap tells the first missing row. -/
theorem exists_firstMissing (hplaced : placedRows file = file.rows) {e : ParseError}
    (he : (file.blocks.flatMap (gaps rows)).head? = some e) :
    ∃ b r, FirstMissing file rows b r ∧ e = .malformed 0 (.unknownNative b.name r.id) := by
  obtain ⟨bs, b, rest, hblocks, hbs, hb⟩ := head?_flatMap_eq_some.1 he
  obtain ⟨ns, n, ns', hnative, hns, hn, rfl⟩ := head?_gaps hb
  have hmem : b ∈ file.blocks := hblocks ▸ List.mem_append_right bs List.mem_cons_self
  obtain ⟨p, r, q, hown, rfl, rfl⟩ := ownRows_split hc h hmem hnative
  have hrow : ∀ x ∈ p ++ r :: q, x ∈ file.rows ∧ x.table = b.id :=
    fun x hx => (mem_ownRows hc.rowIds).1 (hown ▸ hx)
  have htable := (hrow r (List.mem_append_right p List.mem_cons_self)).2
  have hsplit : file.rows = (bs.flatMap (ownRows file.rows) ++ p) ++
      r :: (q ++ rest.flatMap (ownRows file.rows)) := by
    apply hplaced.symm.trans
    rw [placedRows, hblocks, List.flatMap_append, List.flatMap_cons, hown]
    simp only [List.append_assoc, List.cons_append]
  -- the earlier tables have no gap at all, and this one has none before the number of `r`
  have hbefore : bs.flatMap (ownRows file.rows) ++ p ⊆ rows := by
    apply List.append_subset.2 ⟨?_, ?_⟩
    · intro x hx
      obtain ⟨c, hcs, hx⟩ := List.mem_flatMap.1 hx
      have hcmem : c ∈ file.blocks := hblocks ▸ List.mem_append_left _ hcs
      exact ownRows_subset hc h hsub hcmem (hbs c hcs) hx
    · intro x hx
      obtain ⟨r', hr', hid, -⟩ := hns x.id (List.mem_map_of_mem hx)
      have hx' := (hrow x (List.mem_append_left _ hx)).1
      rwa [← eq_of_key_eq hc.rowIds (hsub.subset hr') hx' hid]
  exact ⟨b, r, ⟨⟨_, _, hsplit, hbefore⟩, fun hr => hn ⟨r, hr, rfl, htable⟩, hmem, htable.symm⟩, rfl⟩

/-- A file with missing rows is refused for the first of them. -/
theorem toSchema_of_missing (hplaced : placedRows file = file.rows) (hne : rows ≠ file.rows) :
    ∃ b r, FirstMissing file rows b r ∧ SaveFile.toSchema { file with rows } =
      .error (.malformed 0 (.unknownNative b.name r.id)) := by
  have hgaps : file.blocks.flatMap (gaps rows) ≠ [] := fun hnil =>
    hne (eq_of_gaps_eq_nil hc h hsub (List.flatMap_eq_nil_iff.1 hnil))
  obtain ⟨e, es, hes⟩ := List.exists_cons_of_ne_nil hgaps
  have he : (file.blocks.flatMap (gaps rows)).head? = some e := by rw [hes, List.head?_cons]
  obtain ⟨b, r, hfirst, rfl⟩ := exists_firstMissing hc h hsub hplaced he
  exact ⟨b, r, hfirst, (judged_toSchema hc h hsub).error_iff.2 he⟩

end Left

/-! ### Written files -/

/-- If some lines of fields are deleted from what is written of distinct tables, reading tells the
first row that is missing. -/
theorem readSchema_gap (ops : List Operation) {selection : List TableId} (hs : selection.Nodup)
    (hsize : selection.length + ((ofHistory ops).selected selection).length < 2 ^ 32)
    {text : String} (h : (writeSchema (ofHistory ops) selection).outcome = .ok text)
    {kept : List Line} (hkept : kept.Sublist (fieldLines text)) (hne : kept ≠ fieldLines text) :
    withFieldLines text (fieldLines text) = text ∧
      ∃ file, ofText text = .ok file ∧ fieldLines text = file.rows.map rowLine ∧
        ∃ rows b r, kept = rows.map rowLine ∧ FirstMissing file rows b r ∧
          readSchema (withFieldLines text kept) =
            .error (.malformed 0 (.unknownNative b.name r.id)) := by
  obtain ⟨file, rfl, hw, hc, hexhaustive, hplaced⟩ := exists_file_of_writeSchema ops hs hsize h
  rw [fieldLines_render hw] at hkept hne
  obtain ⟨rows, hsub, rfl⟩ := List.sublist_map_iff.1 hkept
  have hrows : ∀ r ∈ rows, WritableRow r := fun r hr => hw.rows r (hsub.subset hr)
  have hlines : ∀ l ∈ rows.map rowLine, '\n' ∉ l :=
    List.forall_mem_map.2 fun r hr => (isLine_rowLine (hrows r hr)).1
  have hfilled : filledLines (rows.map rowLine) = rows.map rowLine := by
    rw [filledLines, List.filter_eq_self]
    exact List.forall_mem_map.2 fun r _ => bne_iff_ne.2 (trim_rowLine r)
  obtain ⟨b, r, hfirst, hrefused⟩ := toSchema_of_missing hc hexhaustive hsub hplaced fun he =>
    hne (congrArg _ he)
  refine ⟨withFieldLines_render hw, _, ofText_render hw, fieldLines_render hw, rows, b, r, rfl,
    hfirst, ?_⟩
  rw [readSchema, ofText_withFieldLines hw hrows hlines hfilled]
  exact hrefused

/-- The staff without the office of the teams and without the boss of the persons. -/
def leftStaff : List Line :=
  ["2|code|1|null|null|0|1|false|true|a|b ", "5|id|4|null|null|3|1|true|false|",
    "7|team|4|2|1|0|1|false|false|"].map String.toList

theorem staff_gap : [(⟨1⟩ : TableId), ⟨0⟩].Nodup ∧
    (writeSchema (ofHistory staff) [⟨1⟩, ⟨0⟩]).outcome = .ok staffText ∧
    leftStaff.Sublist (fieldLines staffText) ∧ leftStaff ≠ fieldLines staffText ∧
    withFieldLines staffText (fieldLines staffText) = staffText ∧
      ∃ file, ofText staffText = .ok file ∧ fieldLines staffText = file.rows.map rowLine ∧
        ∃ rows b r, leftStaff = rows.map rowLine ∧ FirstMissing file rows b r ∧
          readSchema (withFieldLines staffText leftStaff) =
            .error (.malformed 0 (.unknownNative b.name r.id)) := by
  have hkept : leftStaff.Sublist (fieldLines staffText) := by
    rw [fieldLines_staffText]
    decide +kernel
  have hne : leftStaff ≠ fieldLines staffText := by
    rw [fieldLines_staffText]
    decide +kernel
  exact ⟨by decide, outcome_staff, hkept, hne,
    readSchema_gap staff (by decide) (by decide) outcome_staff hkept hne⟩

end Schemata.SaveFile
