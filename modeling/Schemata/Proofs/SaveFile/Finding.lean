import Schemata.Proofs.Format.Completeness
import Schemata.Proofs.Model.Relating
import Schemata.Proofs.SaveFile.Acceptance
import Schemata.Proofs.SaveFile.Placing
import Schemata.Proofs.SaveFile.Reachability
import Schemata.Proofs.SaveFile.Reading

/-!
# Save files find what they look up

Numbers may be given twice, lead nowhere or lead ahead. What a number is noted for is there all the
same: every block has a table, and once the tables are filled every row has a column under its
number, its own or that of another row with this number. So the schema can only refuse a name that
it has.
-/
namespace Schemata.SaveFile
open Schema
variable {α : Type} {A : SchemaError → Prop} {rows : List Row} {draft draft' draft'' : Draft}
  {places : Places} {s s' : Schema} {b : Block} {r : Row} {table : TableId}

theorem ends_found {P : α → Prop} (fault : LineFault) {o : Option α} (h : ∀ a, o = some a → P a) :
    Ends (ParseError.Within A) P (found fault o) := by
  cases o with
  | none => exact .error trivial
  | some a => exact .ok (h a rfl)

/-! ### Tables -/

theorem ends_addTable (done : List Block) (b : Block) :
    Ends (ParseError.Within SchemaError.IsDuplicate) (· = Outline.draft { blocks := done ++ [b] })
      (addTable (Outline.draft { blocks := done }) b) where
  given h := by
    cases (addTable_draft (name_of_addTable h)).symm.trans h
    rfl
  refused h := by
    have hadd := (Schema.ends_addTable (Outline.schema { blocks := done }) b.name).accepted
      (A := SchemaError.IsDuplicate) fun e he => .inl ⟨_, he⟩
    have hrest : Ends (ParseError.Within SchemaError.IsDuplicate) (fun _ => True)
        (addTable (Outline.draft { blocks := done }) b) := hadd.bind fun _ _ _ => .ok trivial
    exact hrest.refused h

theorem ends_addTables (blocks : List Block) :
    Ends (ParseError.Within SchemaError.IsDuplicate) (· = Outline.draft { blocks })
      (blocks.foldlM addTable ({}, {})) := by
  apply Ends.foldlM (P := fun done draft => draft = Outline.draft { blocks := done }) rfl
  rintro done b _ - _ rfl
  exact ends_addTable done b

theorem noted_tables (blocks : List Block) :
    Noted (Outline.schema { blocks }).HasTable (Outline.places { blocks }).tables := by
  intro n table h
  obtain ⟨i, rfl, hi, -⟩ := (lookup_withPlaces_eq_some TableId.mk).1 h
  have hlt := (List.getElem?_eq_some_iff.1 hi).1
  refine ⟨_, List.getElem?_eq_getElem (l := (Outline.schema { blocks }).tables) ?_⟩
  simpa [Outline.schema, Outline.blockIds] using hlt

theorem lookup_tables_isSome {blocks : List Block} {n : Nat} :
    ((Outline.places { blocks }).tables.lookup n).isSome = true ↔ ∃ b ∈ blocks, b.id = n :=
  (isSome_lookup_withPlaces TableId.mk).trans List.mem_map

/-! ### Columns -/

/-- What filling tables keeps, and the rows whose numbers it notes. -/
structure Follows (rs : List Row) (draft draft' : Draft) : Prop where
  grows : Grows draft.1 draft'.1
  tables : draft'.2.tables = draft.2.tables
  noted : Noted draft'.1.HasField draft'.2.fields
  kept : ∀ n, (draft.2.fields.lookup n).isSome = true → (draft'.2.fields.lookup n).isSome = true
  found : ∀ r ∈ rs, (draft'.2.fields.lookup r.id).isSome = true

theorem follows_refl (h : Noted draft.1.HasField draft.2.fields) : Follows [] draft draft :=
  ⟨.refl _, rfl, h, fun _ => id, List.forall_mem_nil _⟩

theorem Follows.trans {rs rs' : List Row} (h : Follows rs draft draft')
    (h' : Follows rs' draft' draft'') : Follows (rs ++ rs') draft draft'' where
  grows := h.grows.trans h'.grows
  tables := h'.tables.trans h.tables
  noted := h'.noted
  kept n hn := h'.kept n (h.kept n hn)
  found := List.forall_mem_append.2 ⟨fun r hr => h'.kept r.id (h.found r hr), h'.found⟩

theorem ends_addColumn (ht : draft.1.HasTable table) (h : Noted draft.1.HasField draft.2.fields)
    (r : Row) :
    Ends (ParseError.Within SchemaError.IsDuplicate) (Follows [r] draft)
      (addColumn table draft r) := by
  obtain ⟨t, ht⟩ := ht
  unfold addColumn
  apply (ends_found _ fun _ _ => trivial).bind
  intro type _ _
  apply ((ends_addField ht r.name).accepted fun e he => .inr ⟨_, _, he⟩).bind
  rintro c - ⟨hgrows, hfield⟩
  obtain ⟨c', hc', hgrows'⟩ := exists_updateField hfield (rowSettings r type)
  apply (Ends.of_exists (P := (c' = ·)) ⟨c', accepted_eq_ok.2 hc', rfl⟩).bind
  rintro _ - rfl
  refine .ok ⟨hgrows.trans hgrows', rfl, ?_, fun n hn => isSome_lookup_cons hn _, by simp⟩
  exact (h.mono fun _ => (hgrows.trans hgrows').hasField).push (hgrows'.hasField hfield)

theorem ends_addColumns (ht : draft.1.HasTable table) (h : Noted draft.1.HasField draft.2.fields)
    (rs : List Row) :
    Ends (ParseError.Within SchemaError.IsDuplicate) (Follows rs draft)
      (rs.foldlM (addColumn table) draft) := by
  apply Ends.foldlM (P := fun done => Follows done draft) (follows_refl h)
  intro done r rest _ draft' hdraft
  exact (ends_addColumn (hdraft.grows.hasTable ht) hdraft.noted r).mono fun _ => hdraft.trans

theorem ends_addRelated (hnoted : Noted s.HasTable places.tables) (ht : s.HasTable table)
    (b : Block) (related : Nat) :
    Ends (ParseError.Within A) (Grows s) (addRelated places b table s related) := by
  apply (ends_found _ fun other hother => hnoted related other hother).bind
  intro other _ hother
  obtain ⟨c, hc, hgrows⟩ := exists_addRelated ht hother
  exact .of_exists ⟨_, bind_eq_ok.2 ⟨c, accepted_eq_ok.2 hc, rfl⟩, hgrows⟩

/-- All rows that name the table of a block. -/
def rowsOf (rows : List Row) (b : Block) : List Row := rows.filter fun r => r.table == b.id

theorem mem_rowsOf : r ∈ rowsOf rows b ↔ r ∈ rows ∧ r.table = b.id := by simp [rowsOf]

theorem ends_fillTable (htables : Noted draft.1.HasTable draft.2.tables)
    (hfields : Noted draft.1.HasField draft.2.fields)
    (hb : (draft.2.tables.lookup b.id).isSome = true) (rows : List Row) :
    Ends (ParseError.Within SchemaError.IsDuplicate) (Follows (rowsOf rows b) draft)
      (fillTable rows draft b) := by
  obtain ⟨table, htable⟩ := Option.isSome_iff_exists.1 hb
  have ht : draft.1.HasTable table := htables b.id table htable
  unfold fillTable
  apply (Ends.recorded (P := (table = ·)) ⟨table, htable, rfl⟩).bind
  rintro _ - rfl
  have hrelated : Ends (ParseError.Within SchemaError.IsDuplicate) (Grows draft.1)
      (b.related.foldlM (addRelated draft.2 b table) draft.1) := by
    apply Ends.foldlM (P := fun _ => Grows draft.1) (.refl _)
    intro _ related _ _ s hs
    apply (ends_addRelated (htables.mono fun _ => hs.hasTable) (hs.hasTable ht) b related).mono
    exact fun _ => hs.trans
  apply hrelated.bind
  intro s _ hs
  apply (Ends.mapM (Q := fun _ => True) fun native _ => ends_found _ fun _ _ => trivial).bind
  intro listed hlisted _
  have hkept : Noted s.HasField draft.2.fields := hfields.mono fun _ => hs.hasField
  have hcolumns : Ends _ (Follows (listed ++ unlistedRows rows b) (s, draft.2)) _ :=
    ends_addColumns (hs.hasTable ht) hkept _
  rw [ownRows_of_mapM hlisted] at hcolumns ⊢
  apply hcolumns.mono
  intro draft' h
  refine ⟨hs.trans h.grows, h.tables, h.noted, h.kept, fun r hr => ?_⟩
  obtain ⟨hr, hrb⟩ := mem_rowsOf.1 hr
  obtain ⟨r', hr', hid⟩ := exists_ownRow hr hrb
  exact hid ▸ h.found r' hr'

/-- The notes once all tables are filled. -/
structure Settled (file : SaveFile) (draft : Draft) : Prop where
  owners : ∀ r ∈ file.rows, ∃ b ∈ file.blocks, b.id = r.table
  tables : Noted draft.1.HasTable draft.2.tables
  fields : Noted draft.1.HasField draft.2.fields
  natives : ∀ r ∈ file.rows, (draft.2.fields.lookup r.id).isSome = true

theorem ends_fill (file : SaveFile) :
    Ends (ParseError.Within SchemaError.IsDuplicate) (Settled file) (fill file) := by
  apply (ends_addTables file.blocks).bind
  rintro _ - rfl
  have howners : Ends (ParseError.Within SchemaError.IsDuplicate)
      (fun _ => ∀ r ∈ file.rows, ∃ b ∈ file.blocks, b.id = r.table)
      (file.rows.forM (checkOwner (Outline.places { blocks := file.blocks }))) := by
    apply Ends.forM
    intro r _
    apply (ends_found (P := fun _ => ∃ b ∈ file.blocks, b.id = r.table) _ ?_).bind
    · exact fun _ _ h => .ok h
    · exact fun table h => lookup_tables_isSome.1 (Option.isSome_iff_exists.2 ⟨table, h⟩)
  apply howners.bind
  intro _ _ howners
  have hfill : Ends (ParseError.Within SchemaError.IsDuplicate)
      (Follows (file.blocks.flatMap (rowsOf file.rows)) (Outline.draft { blocks := file.blocks }))
      (file.blocks.foldlM (fillTable file.rows) (Outline.draft { blocks := file.blocks })) := by
    apply Ends.foldlM (P := fun done => Follows (done.flatMap (rowsOf file.rows)) _)
    · exact follows_refl (noted_nil _)
    · intro done b rest hl draft hdraft
      have hb : b ∈ file.blocks := hl ▸ List.mem_append_right done List.mem_cons_self
      have htables : Noted draft.1.HasTable draft.2.tables := by
        rw [hdraft.tables]
        exact (noted_tables file.blocks).mono fun _ => hdraft.grows.hasTable
      have hfound : (draft.2.tables.lookup b.id).isSome = true := by
        rw [hdraft.tables]
        exact lookup_tables_isSome.2 ⟨b, hb, rfl⟩
      rw [List.flatMap_append, List.flatMap_singleton]
      exact (ends_fillTable htables hdraft.noted hfound file.rows).mono fun _ => hdraft.trans
  apply hfill.mono
  intro draft hdraft
  refine ⟨howners, ?_, hdraft.noted, fun r hr => ?_⟩
  · rw [hdraft.tables]
    exact (noted_tables file.blocks).mono fun _ => hdraft.grows.hasTable
  · obtain ⟨b, hb, hid⟩ := howners r hr
    exact hdraft.found r (List.mem_flatMap.2 ⟨b, hb, mem_rowsOf.2 ⟨hr, hid.symm⟩⟩)

/-! ### References -/

theorem ends_bindRow (hreach : Reachable s) (htables : Noted s.HasTable places.tables)
    (hfields : Noted s.HasField places.fields)
    (hnative : (places.fields.lookup r.id).isSome = true) :
    Ends (ParseError.Within A) (fun s' => Reachable s' ∧ Grows s s') (bindRow places s r) := by
  suffices h : Ends (ParseError.Within A) (Grows s) (bindRow places s r) from
    (h.also fun s' hs' => reachable_bindRow hreach hs').mono fun _ hs' => hs'.symm
  unfold bindRow
  cases r.foreign with
  | none => exact .ok (.refl s)
  | some ref =>
    obtain ⟨native, hn⟩ := Option.isSome_iff_exists.1 hnative
    apply (Ends.recorded (P := (native = ·)) ⟨native, hn, rfl⟩).bind
    rintro _ - rfl
    apply (ends_found _ fun target htarget => hfields ref.field target htarget).bind
    rintro target - ⟨g, hg⟩
    apply (Ends.recorded (P := (g = ·)) ⟨g, hg, rfl⟩).bind
    rintro _ - rfl
    dsimp only
    split
    · rename_i htable
      obtain ⟨f, hf⟩ := hfields r.id native hn
      apply (Ends.recorded (P := (f = ·)) ⟨f, hf, rfl⟩).bind
      rintro _ - rfl
      -- the owner of the native field is there, as in every reachable schema
      have howner : s.HasTable f.table := (layout_invariant.holds hreach).hasTable hf
      obtain ⟨c, hc, hgrows⟩ := exists_addRelated howner (htables ref.table g.table htable)
      obtain ⟨c', hc', hgrows'⟩ := exists_bind hf hg hc
      apply Ends.of_exists
      exact ⟨_, bind_eq_ok.2 ⟨c, accepted_eq_ok.2 hc, bind_eq_ok.2
        ⟨c', accepted_eq_ok.2 hc', rfl⟩⟩, hgrows.trans hgrows'⟩
    · exact .error trivial

theorem ends_toSchema (file : SaveFile) :
    Ends (ParseError.Within SchemaError.IsDuplicate) (fun _ => True) file.toSchema := by
  rw [toSchema_eq]
  apply (ends_fill file).bind
  intro draft hdraft h
  have hbind : Ends (ParseError.Within SchemaError.IsDuplicate)
      (fun s => Reachable s ∧ Grows draft.1 s) (file.rows.foldlM (bindRow draft.2) draft.1) := by
    apply Ends.foldlM (P := fun _ s => Reachable s ∧ Grows draft.1 s)
    · exact ⟨reachable_fill hdraft, .refl _⟩
    · rintro done r rest hl s ⟨hreach, hgrows⟩
      have hr : r ∈ file.rows := hl ▸ List.mem_append_right done List.mem_cons_self
      apply (ends_bindRow hreach (h.tables.mono fun _ => hgrows.hasTable)
        (h.fields.mono fun _ => hgrows.hasField) (h.natives r hr)).mono
      exact fun s' hs' => ⟨hs'.1, hgrows.trans hs'.2⟩
  exact hbind.mono fun _ _ => trivial

theorem ends_readSchema (text : String) :
    Ends (ParseError.Within SchemaError.IsDuplicate) (fun _ => True) (readSchema text) :=
  (ends_ofText text).bind fun file _ _ => ends_toSchema file

/-! ### Look-ups -/

/-- A schema in the making whose columns are searched for a name, as one may be added. -/
inductive Searched (file : SaveFile) : Schema → Prop
  | columns {draft draft₁ draft' : Draft} {s : Schema} {b : Block} {table : TableId}
    {listed : List Row} (hmade : file.blocks.foldlM addTable ({}, {}) = .ok draft)
    (hfilled : Passes (fillTable file.rows) draft file.blocks draft₁) (hb : b ∈ file.blocks)
    (htable : draft₁.2.tables.lookup b.id = some table)
    (hrelated : b.related.foldlM (addRelated draft₁.2 b table) draft₁.1 = .ok s)
    (hlisted : b.native.mapM (nativeRow file.rows b) = .ok listed)
    (hcolumns : Passes (addColumn table) (s, draft₁.2) (listed ++ unlistedRows file.rows b)
      draft') : Searched file draft'.1

theorem reachable_of_searched {file : SaveFile} (h : Searched file s) : Reachable s := by
  obtain ⟨hmade, hfilled, -, -, hrelated, -, hcolumns⟩ := h
  have hmade := foldlM_invariant (P := fun draft => Reachable draft.1)
    (fun _ _ _ h hb => reachable_addTable h hb) reachable_empty hmade
  have hfilled := hfilled.invariant (P := fun draft => Reachable draft.1)
    (fun _ _ _ h hb => reachable_fillTable h hb) hmade
  have hrelated := foldlM_invariant (fun _ _ _ h hs => reachable_addRelated h hs) hfilled hrelated
  exact hcolumns.invariant (P := fun draft => Reachable draft.1)
    (fun _ _ _ h hr => reachable_addColumn h hr) hrelated

/-- What is looked up while a file becomes a schema is there: the table of a block, the columns of a
table that is being filled, and the field under the number of a row. -/
structure Finds (file : SaveFile) : Prop where
  tables : ∀ draft, file.blocks.foldlM addTable ({}, {}) = .ok draft → ∀ b ∈ file.blocks,
    ∃ table, draft.2.tables.lookup b.id = some table ∧ draft.1.HasTable table
  columns : ∀ s, Searched file s → Linked s
  natives : ∀ draft, fill file = .ok draft → ∀ r ∈ file.rows,
    ∃ f, draft.2.fields.lookup r.id = some f ∧ draft.1.HasField f

theorem finds (file : SaveFile) : Finds file where
  tables draft h b hb := by
    cases (ends_addTables file.blocks).given h
    obtain ⟨table, htable⟩ := Option.isSome_iff_exists.1 (lookup_tables_isSome.2 ⟨b, hb, rfl⟩)
    exact ⟨table, htable, noted_tables file.blocks b.id table htable⟩
  columns s h := linked_of_reachable (reachable_of_searched h)
  natives draft h r hr := by
    have hsettled := (ends_fill file).given h
    obtain ⟨f, hf⟩ := Option.isSome_iff_exists.1 (hsettled.natives r hr)
    exact ⟨f, hf, hsettled.fields r.id f hf⟩

end Schemata.SaveFile
