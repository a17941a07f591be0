import Schemata.Proofs.Edge.Assembly
import Schemata.Proofs.Edge.Drawn
import Schemata.Proofs.Format.Reachability
import Schemata.Proofs.Model.Layout

/-!
# What a schema shows of a diagram

An attribute that has an entity is a column of its table and of no other one. So a schema shows
every attribute of a diagram once, but for those without an entity, and shows nothing else.
-/
namespace Schemata.Edge
open Schema
variable {d : Diagram} {l : Links} {s : Schema} {done : List Entity} {e : Entity}

/-- The attributes of an entity, in the order in which they were recorded. -/
def attributesOf (d : Diagram) (l : Links) (e : Entity) : List Attribute :=
  d.attributes.filter fun a => l.owner? a.id == some e.id

theorem mem_attributesOf {a : Attribute} :
    a ∈ attributesOf d l e ↔ a ∈ d.attributes ∧ l.owner? a.id = some e.id := by
  rw [attributesOf, List.mem_filter, beq_iff_eq]

/-- The place of the table of an entity. -/
def entityPlace (d : Diagram) (id : Nat) : TableId := ⟨(d.entities.map (·.id)).idxOf id⟩

/-- A table shows an entity of a diagram. -/
structure ShowsEntity (d : Diagram) (l : Links) (s : Schema) (id : TableId) (e : Entity)
    (t : Table) : Prop where
  name : t.name = e.name
  columns : t.columns.map s.field? = (attributesOf d l e).map fun a => some (columnOf id a)
  related : t.related = (l.relatedTo e.id).map (entityPlace d)
  bindings : t.bindings = ∅
  indexes : t.indexes = ∅

/-! ### Places -/

theorem Diagram.Drawn.nodup_ids (hd : d.Drawn) : (d.entities.map (·.id)).Nodup :=
  (List.nodup_append.1 hd.distinct).1

theorem Diagram.Drawn.entityPlace_eq (hd : d.Drawn) {i : Nat} (he : d.entities[i]? = some e) :
    entityPlace d e.id = ⟨i⟩ := by
  apply congrArg TableId.mk (idxOf_of_getElem? hd.nodup_ids _)
  rw [List.getElem?_map, he, Option.map_some]

theorem exists_entity {id : Nat} (h : d.IsEntity id) :
    ∃ e : Entity, d.entities[(entityPlace d id).index]? = some e ∧ e.id = id := by
  have hlt := List.idxOf_lt_length_of_mem (List.mem_map.2 h)
  have hid := List.getElem_idxOf hlt
  rw [List.getElem_map] at hid
  rw [List.length_map] at hlt
  exact ⟨_, List.getElem?_eq_getElem hlt, hid⟩

theorem entityPlace_inj {x y : Nat} (hx : d.IsEntity x) (hy : d.IsEntity y)
    (h : entityPlace d x = entityPlace d y) : x = y := by
  obtain ⟨e, he, rfl⟩ := exists_entity hx
  obtain ⟨e', he', rfl⟩ := exists_entity hy
  rw [h, he'] at he
  cases he
  rfl

/-- All entities with their tables. -/
def entityTables (d : Diagram) : Tables := withPlaces TableId.mk (d.entities.map (·.id))

theorem lookup_entityTables (hd : d.Drawn) {id : Nat} (h : d.IsEntity id) :
    (entityTables d).lookup id = some (entityPlace d id) := by
  rw [entityTables, lookup_withPlaces _ hd.nodup_ids, if_pos]
  · rfl
  · exact List.mem_map.2 h

theorem mem_map_entityPlace (hr : Resolved d d.connectors l) {x y : Nat} (hy : d.IsEntity y) :
    entityPlace d y ∈ (l.relatedTo x).map (entityPlace d) ↔ y ∈ l.relatedTo x := by
  constructor
  · intro h
    obtain ⟨z, hz, hplace⟩ := List.mem_map.1 h
    exact entityPlace_inj ((hr.related x z).1 hz).2.1 hy hplace ▸ hz
  · exact List.mem_map_of_mem

theorem nodup_related (hr : Resolved d d.connectors l) (id : Nat) :
    ((l.relatedTo id).map (entityPlace d)).Nodup := by
  apply (nodup_of_rank (hr.relatedOrder id)).map_on
  intro x hx y hy h
  exact entityPlace_inj ((hr.related id x).1 hx).2.1 ((hr.related id y).1 hy).2.1 h

/-! ### Filling -/

/-- The tables of the first entities are filled, the others have no columns yet. -/
structure Filled (d : Diagram) (l : Links) (done : List Entity) (s : Schema) : Prop where
  tableCount : s.tables.length = d.entities.length
  filled : ∀ (i : Nat) e, done[i]? = some e →
    ∃ t, s.table? ⟨i⟩ = some t ∧ ShowsEntity d l s ⟨i⟩ e t
  bare : ∀ (i : Nat) e, d.entities[i]? = some e → done.length ≤ i →
    s.table? ⟨i⟩ = some { name := e.name }

theorem filled_nil (d : Diagram) (l : Links) : Filled d l [] (bareSchema d.entities) where
  tableCount := by simp [bareSchema]
  filled i e he := by simp at he
  bare i e he _ := by simp [bareSchema, table?, he]

/-- With the table of one more entity filled. -/
def withEntity (d : Diagram) (l : Links) (s : Schema) (id : TableId) (e : Entity) : Schema :=
  withColumns (s.withRelated id ((l.relatedTo e.id).map (entityPlace d))) id (attributesOf d l e)

theorem table?_withEntity {id id' : TableId} (h : id' ≠ id) :
    (withEntity d l s id e).table? id' = s.table? id' := by
  rw [withEntity, table?_withColumns, if_neg h, table?_withRelated, if_neg h]

theorem ShowsEntity.withEntity {id id' : TableId} {e' : Entity} {t : Table}
    (h : ShowsEntity d l s id' e' t) : ShowsEntity d l (withEntity d l s id e) id' e' t where
  name := h.name
  columns := by
    rw [← h.columns]
    apply List.map_congr_left
    intro f hf
    have hmem := List.mem_map_of_mem (f := s.field?) hf
    rw [h.columns] at hmem
    obtain ⟨a, -, ha⟩ := List.mem_map.1 hmem
    rw [← ha]
    exact field?_withColumns ha.symm _
  related := h.related
  bindings := h.bindings
  indexes := h.indexes

theorem exists_showsEntity (hr : Resolved d d.connectors l) {id : TableId}
    (hbare : s.table? id = some { name := e.name }) :
    ∃ t, (withEntity d l s id e).table? id = some t ∧
      ShowsEntity d l (withEntity d l s id e) id e t := by
  rw [withEntity, table?_withColumns, if_pos rfl, table?_withRelated, if_pos rfl, hbare]
  refine ⟨_, rfl, ⟨rfl, map_field?_newPlaces _ _ _, ?_, rfl, rfl⟩⟩
  exact (foldl_enlist_of_nodup (nodup_related hr e.id)).trans (List.nil_append _)

theorem Filled.push (h : Filled d l done s) (hr : Resolved d d.connectors l)
    (he : d.entities[done.length]? = some e) :
    Filled d l (done ++ [e]) (withEntity d l s ⟨done.length⟩ e) where
  tableCount := by
    rw [← h.tableCount]
    simp [withEntity, withColumns, withRelated, modifyTable]
  filled i e' he' := by
    rw [getElem?_push] at he'
    by_cases hi : i = done.length
    · rw [if_pos hi] at he'
      cases he'
      rw [hi]
      exact exists_showsEntity hr (h.bare _ e he (Nat.le_refl _))
    · rw [if_neg hi] at he'
      obtain ⟨t, ht, hshows⟩ := h.filled i e' he'
      refine ⟨t, (table?_withEntity ?_).trans ht, hshows.withEntity⟩
      exact fun he => hi (congrArg TableId.index he)
  bare i e' he' hi := by
    rw [List.length_append, List.length_singleton] at hi
    rw [table?_withEntity, h.bare i e' he' (Nat.le_of_succ_le hi)]
    exact fun he => Nat.ne_of_gt hi (congrArg TableId.index he)

/-- The faults of the attributes of an entity: each one whose name an earlier one has. -/
def entityFaults (d : Diagram) (l : Links) (e : Entity) : List ParseError :=
  faultsAlong (fun done a => faultIf (∃ b ∈ done, b.name = a.name)
    (.schema (.duplicateField e.name a.name))) [] (attributesOf d l e)

theorem entityFaults_eq_nil :
    entityFaults d l e = [] ↔ ((attributesOf d l e).map (·.name)).Nodup := by
  rw [entityFaults, faultsAlong_eq_nil, nodup_map_iff]
  simp only [List.nil_append, faultIf_eq_nil, not_exists, not_and, ne_eq]

theorem exists_of_head?_entityFaults {err : ParseError}
    (h : (entityFaults d l e).head? = some err) :
    ∃ a b, [a, b].Sublist (attributesOf d l e) ∧ a.name = b.name ∧
      err = .schema (.duplicateField e.name b.name) := by
  obtain ⟨before, b, after, hsplit, -, hfault⟩ := head?_faultsAlong h
  obtain ⟨⟨a, ha, hname⟩, rfl⟩ := mem_faultIf.1 (List.mem_of_head? hfault)
  refine ⟨a, b, ?_, hname, rfl⟩
  rw [hsplit]
  exact (List.singleton_sublist.2 ha).append (List.singleton_sublist.2 List.mem_cons_self)

theorem Filled.hasTable (h : Filled d l done s) {id : Nat} (hid : d.IsEntity id) :
    s.HasTable (entityPlace d id) := by
  obtain ⟨e, he, -⟩ := exists_entity hid
  have hlt := (List.getElem?_eq_some_iff.1 he).1
  rw [← h.tableCount] at hlt
  exact ⟨_, List.getElem?_eq_getElem hlt⟩

theorem judged_fillTable (hd : d.Drawn) (hr : Resolved d d.connectors l) {rest : List Entity}
    (hsplit : d.entities = done ++ e :: rest) (h : Filled d l done s) :
    Judged (entityFaults d l e) (Filled d l (done ++ [e]))
      (fillTable d l (entityTables d) s e) := by
  have he : d.entities[done.length]? = some e := by simp [hsplit]
  have hentity : d.IsEntity e.id := ⟨e, List.mem_of_getElem? he, rfl⟩
  have hplace := hd.entityPlace_eq he
  have hrelated : (l.relatedTo e.id).foldlM (addRelated (entityTables d) ⟨done.length⟩) s =
      .ok (s.withRelated ⟨done.length⟩ ((l.relatedTo e.id).map (entityPlace d))) := by
    apply foldlM_addRelated (hplace ▸ h.hasTable hentity)
    intro x hx
    have hx := ((hr.related e.id x).1 hx).2.1
    exact ⟨lookup_entityTables hd hx, h.hasTable hx⟩
  obtain ⟨t, ht, hname, hcolumns⟩ : ∃ t,
      (s.withRelated ⟨done.length⟩ ((l.relatedTo e.id).map (entityPlace d))).table?
        ⟨done.length⟩ = some t ∧ t.name = e.name ∧ t.columns = [] := by
    rw [table?_withRelated, if_pos rfl, h.bare _ e he (Nat.le_refl _)]
    exact ⟨_, rfl, rfl, rfl⟩
  rw [fillTable, lookup_entityTables hd hentity, hplace]
  change Judged _ _ ((l.relatedTo e.id).foldlM (addRelated (entityTables d) ⟨done.length⟩) s >>=
    fun s => (attributesOf d l e).foldlM (addColumn ⟨done.length⟩) s)
  rw [hrelated, entityFaults, ← hname]
  apply (judged_addColumns ht hcolumns (attributesOf d l e)).mono
  rintro _ rfl
  exact h.push hr he

/-- Two attributes of one entity with one name are all that an assembly can be refused for. -/
theorem judged_assemble (hd : d.Drawn) (hr : Resolved d d.connectors l) :
    Judged (d.entities.flatMap (entityFaults d l)) (Filled d l d.entities) (assemble d l) := by
  rw [assemble, foldlM_addTable hd.entityNames, ← faultsAlong_const (entityFaults d l) []]
  apply Judged.foldlM_prefix (P := Filled d l) (filled_nil d l)
  intro done e rest hsplit s hs
  exact judged_fillTable hd hr hsplit hs

/-! ### Schemata -/

/-- A schema shows a diagram whose connectors say this. -/
structure Shows (d : Diagram) (l : Links) (s : Schema) : Prop where
  /-- Names tell tables apart and the columns of one table; a field is a column of just its own
  table, and only once. -/
  layout : s.Layout
  tableCount : s.tables.length = d.entities.length
  tables : ∀ (i : Nat) e, d.entities[i]? = some e →
    ∃ t, s.table? ⟨i⟩ = some t ∧ ShowsEntity d l s ⟨i⟩ e t
  /-- An attribute that has an entity is one field. -/
  attributes : ∀ a ∈ d.attributes, ∀ id, l.owner? a.id = some id →
    ∃ (i : Nat) (e : Entity), d.entities[i]? = some e ∧ e.id = id ∧
      ∃! f, s.field? f = some (columnOf ⟨i⟩ a)
  /-- A field is one attribute that has an entity. -/
  fields : ∀ f b, s.field? f = some b → ∃! a, a ∈ d.attributes ∧
    ∃ e, d.entities[b.table.index]? = some e ∧ l.owner? a.id = some e.id ∧
      b = columnOf b.table a
  symmetric : ∀ id id' t t', s.table? id = some t → s.table? id' = some t' →
    (id' ∈ t.related ↔ id ∈ t'.related)

/-- Each table is that of an entity. -/
theorem Filled.exists_entity (h : Filled d l d.entities s) {id : TableId} {t : Table}
    (ht : s.table? id = some t) :
    ∃ e, d.entities[id.index]? = some e ∧ ShowsEntity d l s id e t := by
  have hlt := lt_of_table? ht
  rw [h.tableCount] at hlt
  have he := List.getElem?_eq_getElem hlt
  obtain ⟨t', ht', hshows⟩ := h.filled _ _ he
  cases ht.symm.trans ht'
  exact ⟨_, he, hshows⟩

theorem Filled.shows (h : Filled d l d.entities s) (hd : d.Drawn) (hr : Resolved d d.connectors l)
    (hl : s.Layout) (hnames : ∀ e ∈ d.entities, ((attributesOf d l e).map (·.name)).Nodup) :
    Shows d l s where
  layout := hl
  tableCount := h.tableCount
  tables := h.filled
  attributes a ha id hid := by
    obtain ⟨e, he, rfl⟩ := Edge.exists_entity ((hr.owner a.id id).1 hid).2.1
    obtain ⟨t, ht, hshows⟩ := h.filled _ e he
    have hmem : some (columnOf (entityPlace d e.id) a) ∈ t.columns.map s.field? := by
      rw [hshows.columns]
      exact List.mem_map_of_mem (mem_attributesOf.2 ⟨ha, hid⟩)
    obtain ⟨f, -, hf⟩ := List.mem_map.1 hmem
    refine ⟨_, e, he, rfl, f, hf, fun g hg => ?_⟩
    exact hl.eq_of_name hg hf rfl rfl
  fields f b hb := by
    obtain ⟨t, ht⟩ := hl.hasTable hb
    obtain ⟨e, he, hshows⟩ := h.exists_entity ht
    have hmem := List.mem_map_of_mem (f := s.field?) ((hl.mem_columns ht f).2 ⟨b, hb, rfl⟩)
    rw [hshows.columns, hb] at hmem
    obtain ⟨a, ha, hcolumn⟩ := List.mem_map.1 hmem
    obtain ⟨hrecorded, howner⟩ := mem_attributesOf.1 ha
    refine ⟨a, ⟨hrecorded, e, he, howner, (Option.some.inj hcolumn).symm⟩, ?_⟩
    rintro a' ⟨hrecorded', e', he', howner', hcolumn'⟩
    cases he.symm.trans he'
    apply List.inj_on_of_nodup_map (hnames e (List.mem_of_getElem? he))
      (mem_attributesOf.2 ⟨hrecorded', howner'⟩) ha
    exact congrArg Field.name (hcolumn'.symm.trans (Option.some.inj hcolumn).symm)
  symmetric id id' t t' ht ht' := by
    obtain ⟨e, he, hshows⟩ := h.exists_entity ht
    obtain ⟨e', he', hshows'⟩ := h.exists_entity ht'
    have hentity : d.IsEntity e.id := ⟨e, List.mem_of_getElem? he, rfl⟩
    have hentity' : d.IsEntity e'.id := ⟨e', List.mem_of_getElem? he', rfl⟩
    have hid : entityPlace d e.id = id := hd.entityPlace_eq he
    have hid' : entityPlace d e'.id = id' := hd.entityPlace_eq he'
    rw [hshows.related, hshows'.related, ← hid, ← hid', mem_map_entityPlace hr hentity',
      mem_map_entityPlace hr hentity]
    exact hr.related_symm e.id e'.id

theorem outcome_readSchema {text : String} (hd : Diagram.ofText text = .ok d)
    (hl : d.links = .ok l) : (readSchema text).outcome = assemble d l := by
  rw [readSchema, liftM_bind_of_ok hd, Diagram.toSchema, liftM_bind_of_ok hl]
  cases hs : assemble d l with
  | error e => rfl
  | ok s => rw [liftM_bind_of_ok rfl]

/-- Where a diagram becomes a schema, each attribute without an entity is warned of. -/
theorem warnings_readSchema {text : String} (hd : Diagram.ofText text = .ok d)
    (hl : d.links = .ok l) (hs : assemble d l = .ok s) :
    (readSchema text).warnings = (unconnected d l).map fun a => .unconnectedAttribute a.name := by
  rw [readSchema, liftM_bind_of_ok hd, Diagram.toSchema, liftM_bind_of_ok hl, liftM_bind_of_ok hs]

/-- A diagram that has been read and whose connectors are resolved becomes a schema unless an entity
has two attributes with one name. The schema shows the diagram, and what it does not show is warned
of. -/
theorem readSchema_shows {text : String} (hd : Diagram.ofText text = .ok d)
    (hl : d.links = .ok l) :
    ((∃ s, (readSchema text).outcome = .ok s) ↔
      ∀ e ∈ d.entities, ((attributesOf d l e).map (·.name)).Nodup) ∧
    (∀ err, (readSchema text).outcome = .error err → ∃ e ∈ d.entities, ∃ a b,
      [a, b].Sublist (attributesOf d l e) ∧ a.name = b.name ∧
      err = .schema (.duplicateField e.name b.name)) ∧
    ∀ s, (readSchema text).outcome = .ok s → Shows d l s ∧
      (readSchema text).warnings = (unconnected d l).map fun a => .unconnectedAttribute a.name := by
  have hdrawn := (ends_ofText (A := fun _ => False) text).given hd
  have hr := (ends_links (A := fun _ => False) hdrawn.distinct).given hl
  have hjudged := judged_assemble hdrawn hr
  have haccepted : (∃ s, assemble d l = .ok s) ↔
      ∀ e ∈ d.entities, ((attributesOf d l e).map (·.name)).Nodup := by
    rw [hjudged.exists_ok_iff, List.flatMap_eq_nil_iff]
    simp only [entityFaults_eq_nil]
  rw [outcome_readSchema hd hl]
  refine ⟨haccepted, ?_, ?_⟩
  · intro err herr
    obtain ⟨before, e, after, hsplit, -, hfault⟩ :=
      head?_flatMap_eq_some.1 (hjudged.error_iff.1 herr)
    exact ⟨e, hsplit ▸ List.mem_append_right before List.mem_cons_self,
      exists_of_head?_entityFaults hfault⟩
  · intro s hs
    have hl' := layout_invariant.holds (reachable_assemble hs)
    exact ⟨(hjudged.of_eq_ok hs).shows hdrawn hr hl' (haccepted.1 ⟨s, hs⟩),
      warnings_readSchema hd hl hs⟩

/-- Painters and paintings. The attributes of a painter are connected in another order than they
are recorded in, and the last attribute has no entity. -/
def gallery : Diagram where
  entities := [⟨1, "Painter"⟩, ⟨4, "Painting"⟩]
  attributes := [⟨2, "born", false⟩, ⟨3, "name", true⟩, ⟨5, "name", false⟩]
  connectors := [⟨6, 1, 3, "None", "None"⟩, ⟨7, 2, 1, "None", "None"⟩, ⟨8, 1, 4, "One", "many"⟩]

def galleryLines : List Text.Line :=
  ["EDGE Diagram File",
    "Figure 1", "\x7b", "Style \"Entity\"", "Text \"Painter\"", "\x7d",
    "Figure 2", "\x7b", "Style \"Attribute\"", "Text \"born\"", "\x7d",
    "Figure 3", "\x7b", "Style \"Attribute\"", "Text \"na me\"", "TypeUnderline", "\x7d",
    "Figure 4", "\x7b", "Style \"Entity\"", "Text \"Painting\"", "\x7d",
    "Figure 5", "\x7b", "Style \"Attribute\"", "Text \"name\"", "\x7d",
    "Connector 6", "\x7b", "Figure1 1", "Figure2 3", "End1 \"None\"", "End2 \"None\"", "\x7d",
    "Connector 7", "\x7b", "Figure1 2", "Figure2 1", "End1 \"None\"", "End2 \"None\"", "\x7d",
    "Connector 8", "\x7b", "Figure1 1", "Figure2 4", "End1 \"One\"", "End2 \"many\"",
    "\x7d"].map String.toList

def galleryText : String := String.ofList (galleryLines.flatMap (· ++ ['\n']))

theorem gallery_shown : Diagram.ofText galleryText = .ok gallery ∧
    gallery.links = .ok ⟨[(3, 1), (2, 1)], [(1, 4), (4, 1)]⟩ ∧
    ∃ s, (readSchema galleryText).outcome = .ok s ∧
      Shows gallery ⟨[(3, 1), (2, 1)], [(1, 4), (4, 1)]⟩ s ∧
      (readSchema galleryText).warnings = [.unconnectedAttribute "name"] := by
  have hd : Diagram.ofText galleryText = .ok gallery := by
    apply eq_ok_of_toOption
    rw [Diagram.ofText, LineCursor.ofText, galleryText, String.toList_ofList]
    decide +kernel
  have hl : gallery.links = .ok ⟨[(3, 1), (2, 1)], [(1, 4), (4, 1)]⟩ := by rfl
  obtain ⟨hiff, -, hall⟩ := readSchema_shows hd hl
  obtain ⟨s, hs⟩ := hiff.2 (by decide)
  exact ⟨hd, hl, s, hs, hall s hs⟩

end Schemata.Edge
