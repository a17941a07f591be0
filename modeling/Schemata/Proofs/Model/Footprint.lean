import Schemata.Proofs.Model.Layout
import Mathlib.Data.Nat.PSub

/-!
# Operations at different tables

An operation that adds nothing works at one table, its home: it reads and changes the record of this
table and those of its fields. Of the rest it reads only what never changes, namely which tables
and fields there are, what they are called and whose the fields are. So operations at different
tables can change places.
-/
namespace Schemata

theorem ok_bind {ε α β : Type} (a : α) (f : α → Except ε β) :
    ((.ok a : Except ε α) >>= f) = f a := rfl

/-- Does the operation ask for a new table or a new field? -/
def Operation.Adds : Operation → Prop
  | .addTable _ | .addField _ _ => True
  | _ => False

/-- A change of one table and of the fields that belong to it, which keeps all names and owners. -/
structure Edit where
  home : TableId
  table : Table → Table := id
  field : FieldId → Field → Field := fun _ a => a
  name : ∀ t, (table t).name = t.name := by intros; rfl
  label : ∀ f a, (field f a).label = a.label := by intros; rfl

namespace Edit
variable {e e' : Edit} {id : TableId} {t : Table} {f : FieldId} {a : Field}

def onTable (e : Edit) (id : TableId) (t : Table) : Table := if id = e.home then e.table t else t

def onField (e : Edit) (f : FieldId) (a : Field) : Field :=
  if a.table = e.home then e.field f a else a

theorem onTable_name : (e.onTable id t).name = t.name := by
  unfold onTable
  split
  · exact e.name t
  · rfl

theorem onField_label : (e.onField f a).label = a.label := by
  unfold onField
  split
  · exact e.label f a
  · rfl

theorem onField_table : (e.onField f a).table = a.table := congrArg Prod.snd onField_label

theorem onTable_of_ne (h : id ≠ e.home) : e.onTable id t = t := if_neg h

theorem onField_of_ne (h : a.table ≠ e.home) : e.onField f a = a := if_neg h

theorem map_onTable_of_ne (h : id ≠ e.home) (t : Option Table) : t.map (e.onTable id) = t := by
  cases t with
  | none => rfl
  | some t => exact congrArg some (onTable_of_ne h)

theorem onTable_comm (h : e.home ≠ e'.home) :
    e'.onTable id (e.onTable id t) = e.onTable id (e'.onTable id t) := by
  by_cases hid : id = e.home
  · have hid' : id ≠ e'.home := hid ▸ h
    rw [onTable_of_ne hid', onTable_of_ne hid']
  · rw [onTable_of_ne hid, onTable_of_ne hid]

theorem onField_comm (h : e.home ≠ e'.home) :
    e'.onField f (e.onField f a) = e.onField f (e'.onField f a) := by
  by_cases ha : a.table = e.home
  · have ha' : a.table ≠ e'.home := ha ▸ h
    rw [onField_of_ne ha', onField_of_ne (onField_table.trans_ne ha')]
  · rw [onField_of_ne ha, onField_of_ne (onField_table.trans_ne ha)]

/-- The edit of a table that changes no field of it but one. -/
def ofField (home : TableId) (f : FieldId) (table : Table → Table) (field : Field → Field)
    (hname : ∀ t, (table t).name = t.name) (hlabel : ∀ a, (field a).label = a.label) : Edit where
  home := home
  table := table
  field g a := if g = f then field a else a
  name := hname
  label g a := by
    split
    · exact hlabel a
    · rfl

end Edit

namespace Schema
variable {s s' : Schema}

/-- The table at which an operation works. There is none if its field is not there. -/
def home? (s : Schema) : Operation → Option TableId
  | .addTable _ => none
  | .addField table _ | .addRelated table _ | .setIndex table _ _ => some table
  | .updateField field _ | .bind field _ | .unbind field | .moveUp field | .moveDown field =>
    (s.field? field).map (·.table)

/-- What an operation answers, with what there is to announce. -/
def answer (s : Schema) (op : Operation) : Except SchemaError (Reply × Option Event) :=
  (s.apply op).map fun c => (c.reply, c.event)

/-- Schemata are equal if all look-ups in them are. -/
theorem eq_of_lookups (ht : s.table? = s'.table?) (hf : s.field? = s'.field?) : s = s' := by
  obtain ⟨tables, fields⟩ := s
  obtain ⟨tables', fields'⟩ := s'
  have htables : tables = tables' := List.ext_getElem? fun i => congrFun ht ⟨i⟩
  have hfields : fields = fields' := List.ext_getElem? fun i => congrFun hf ⟨i⟩
  rw [htables, hfields]

/-! ### Edits -/

def edited (s : Schema) (e : Edit) : Schema where
  tables := s.tables.mapIdx fun i => e.onTable ⟨i⟩
  fields := s.fields.mapIdx fun i => e.onField ⟨i⟩

variable {e e' : Edit}

theorem table?_edited (s : Schema) (e : Edit) (id : TableId) :
    (s.edited e).table? id = (s.table? id).map (e.onTable id) := List.getElem?_mapIdx

theorem field?_edited (s : Schema) (e : Edit) (f : FieldId) :
    (s.edited e).field? f = (s.field? f).map (e.onField f) := List.getElem?_mapIdx

/-- Edits of different tables can change places. -/
theorem edited_comm (h : e.home ≠ e'.home) (s : Schema) :
    (s.edited e).edited e' = (s.edited e').edited e := by
  apply eq_of_lookups
  · funext id
    simp only [table?_edited, Option.map_map]
    exact congrArg (Option.map · _) (funext fun t => Edit.onTable_comm h)
  · funext f
    simp only [field?_edited, Option.map_map]
    exact congrArg (Option.map · _) (funext fun a => Edit.onField_comm h)

/-! ### What an operation sees -/

/-- Seen from one table, the schemata are alike: its record and those of its fields are the same,
and what never changes is the same everywhere. -/
structure Alike (home : Option TableId) (s s' : Schema) : Prop where
  names : ∀ id, (s'.table? id).map (·.name) = (s.table? id).map (·.name)
  labels : ∀ f, (s'.field? f).map Field.label = (s.field? f).map Field.label
  table : ∀ id, home = some id → s'.table? id = s.table? id
  field : ∀ f a, s.field? f = some a → home = some a.table → s'.field? f = some a

variable {home : Option TableId}

theorem alike_refl (home : Option TableId) (s : Schema) : Alike home s s :=
  ⟨fun _ => rfl, fun _ => rfl, fun _ _ => rfl, fun _ _ ha _ => ha⟩

/-- From elsewhere, the edit of a table is not seen. -/
theorem alike_edited (h : home ≠ some e.home) (s : Schema) : Alike home s (s.edited e) where
  names id := by
    rw [table?_edited, Option.map_map]
    exact congrArg (Option.map · _) (funext fun t => Edit.onTable_name)
  labels f := by
    rw [field?_edited, Option.map_map]
    exact congrArg (Option.map · _) (funext fun a => Edit.onField_label)
  table id hid := by
    have hne : id ≠ e.home := fun he => h (he ▸ hid)
    rw [table?_edited, Edit.map_onTable_of_ne hne]
  field f a ha htable := by
    have hne : a.table ≠ e.home := fun he => h (he ▸ htable)
    rw [field?_edited, ha, Option.map_some, Edit.onField_of_ne hne]

theorem Alike.table?_none (h : Alike home s s') {id : TableId} (hid : s.table? id = none) :
    s'.table? id = none := by
  have hname := h.names id
  rwa [hid, Option.map_none, Option.map_eq_none_iff] at hname

theorem Alike.exists_table (h : Alike home s s') {id : TableId} {t : Table}
    (ht : s.table? id = some t) : ∃ t', s'.table? id = some t' ∧ t'.name = t.name := by
  have hname := h.names id
  rwa [ht, Option.map_some, Option.map_eq_some_iff] at hname

theorem Alike.field?_none (h : Alike home s s') {f : FieldId} (hf : s.field? f = none) :
    s'.field? f = none := by
  have hlabel := h.labels f
  rwa [hf, Option.map_none, Option.map_eq_none_iff] at hlabel

theorem Alike.exists_field (h : Alike home s s') {f : FieldId} {a : Field}
    (ha : s.field? f = some a) :
    ∃ a', s'.field? f = some a' ∧ a'.name = a.name ∧ a'.table = a.table := by
  have hlabel := h.labels f
  rw [ha, Option.map_some, Option.map_eq_some_iff] at hlabel
  obtain ⟨a', ha', he⟩ := hlabel
  exact ⟨a', ha', congrArg Prod.fst he, congrArg Prod.snd he⟩

theorem Alike.table_home {id : TableId} {t : Table} (h : Alike (some id) s s')
    (ht : s.table? id = some t) : s'.table? id = some t := (h.table id rfl).trans ht

theorem Alike.field_home {f : FieldId} {a : Field} (h : Alike (some a.table) s s')
    (ha : s.field? f = some a) : s'.field? f = some a := h.field f a ha rfl

/-- An operation works at a table if, in all schemata that are alike from there, it answers the same
and makes the same edit of this table, or none. -/
def WorksAt (home : Option TableId) (s : Schema) (op : Operation) : Prop :=
  ∃ (edit : Option Edit) (reply : Except SchemaError (Reply × Option Event)),
    (∀ e, edit = some e → home = some e.home) ∧
    ∀ s', Alike home s s' → s'.answer op = reply ∧ s'.after op = edit.elim s' s'.edited

theorem worksAt_of_refused {op : Operation} (error : SchemaError)
    (h : ∀ s', Alike home s s' → s'.apply op = .error error) : WorksAt home s op := by
  refine ⟨none, .error error, nofun, fun s' hs => ?_⟩
  rw [answer, after, h s' hs]
  exact ⟨rfl, rfl⟩

theorem worksAt_of_idle {op : Operation} (reply : Reply) (event : Option Event)
    (h : ∀ s', Alike home s s' → s'.apply op = .ok ⟨s', reply, event⟩) : WorksAt home s op := by
  refine ⟨none, .ok (reply, event), nofun, fun s' hs => ?_⟩
  rw [answer, after, h s' hs]
  exact ⟨rfl, rfl⟩

theorem worksAt_of_edit {op : Operation} (e : Edit) (reply : Reply) (event : Option Event)
    (he : home = some e.home)
    (h : ∀ s', Alike home s s' → s'.apply op = .ok ⟨s'.edited e, reply, event⟩) :
    WorksAt home s op := by
  refine ⟨some e, .ok (reply, event), fun e' he' => Option.some.inj he' ▸ he, fun s' hs => ?_⟩
  rw [answer, after, h s' hs]
  exact ⟨rfl, rfl⟩

/-! ### Operations -/

theorem table?_modifyTable_edited (s : Schema) (e : Edit) (id : TableId) :
    (s.modifyTable e.home e.table).table? id = (s.edited e).table? id := by
  rw [table?_modifyTable, table?_edited]
  by_cases h : id = e.home
  · rw [if_pos h, ← h]
    cases s.table? id with
    | none => rfl
    | some t => exact congrArg some (if_pos h).symm
  · rw [if_neg h, Edit.map_onTable_of_ne h]

theorem modifyTable_eq_edited (s : Schema) (e : Edit) (hfield : ∀ f a, e.field f a = a) :
    s.modifyTable e.home e.table = s.edited e := by
  apply eq_of_lookups
  · exact funext (table?_modifyTable_edited s e)
  · funext f
    rw [field?_modifyTable, field?_edited]
    cases s.field? f with
    | none => rfl
    | some a =>
      have ha : e.onField f a = a := by simp [Edit.onField, hfield]
      rw [Option.map_some, ha]

/-- A change of a field and of the table that it belongs to. -/
theorem modifyField_eq_edited {f : FieldId} {a : Field} (ha : s.field? f = some a)
    {table : Table → Table} {field : Field → Field} (hname : ∀ t, (table t).name = t.name)
    (hlabel : ∀ a, (field a).label = a.label) :
    (s.modifyTable a.table table).modifyField f field =
      s.edited (.ofField a.table f table field hname hlabel) := by
  apply eq_of_lookups
  · rw [table?_modifyField]
    exact funext (table?_modifyTable_edited s (.ofField a.table f table field hname hlabel))
  · funext g
    rw [field?_modifyField, field?_modifyTable, field?_edited]
    by_cases hg : g = f
    · rw [if_pos hg, hg, ha]
      simp [Edit.onField, Edit.ofField]
    · rw [if_neg hg]
      cases s.field? g with
      | none => rfl
      | some b => simp [Edit.onField, Edit.ofField, hg]

theorem worksAt_of_modifyTable {op : Operation} {table : TableId} (f : Table → Table)
    (hname : ∀ t, (f t).name = t.name) (reply : Reply) (event : Option Event)
    (h : ∀ s', Alike (some table) s s' →
      s'.apply op = .ok ⟨s'.modifyTable table f, reply, event⟩) :
    WorksAt (some table) s op := by
  let edit : Edit := { home := table, table := f, name := hname }
  apply worksAt_of_edit edit reply event rfl
  intro s' hs
  rw [h s' hs, ← modifyTable_eq_edited s' edit fun _ _ => rfl]

theorem worksAt_of_modifyField {op : Operation} {f : FieldId} {a : Field}
    (ha : s.field? f = some a) (table : Table → Table) (field : Field → Field)
    (hname : ∀ t, (table t).name = t.name) (hlabel : ∀ a, (field a).label = a.label)
    (reply : Reply) (event : Option Event)
    (h : ∀ s' : Schema, Alike (some a.table) s s' → s'.field? f = some a →
      s'.apply op = .ok ⟨(s'.modifyTable a.table table).modifyField f field, reply, event⟩) :
    WorksAt (some a.table) s op := by
  apply worksAt_of_edit (.ofField a.table f table field hname hlabel) reply event rfl
  intro s' hs
  have ha' := hs.field_home ha
  rw [h s' hs ha', modifyField_eq_edited ha' hname hlabel]

theorem requireTable_of_none {id : TableId} (h : s.table? id = none) :
    s.requireTable id = .error (.unknownTable id) := by rw [requireTable, h]

theorem requireField_of_none {f : FieldId} (h : s.field? f = none) :
    s.requireField f = .error (.unknownField f) := by rw [requireField, h]

/-- Whether a field is there is seen from everywhere, so a field that is there may be assumed. -/
theorem worksAt_of_field {op : Operation} (f : FieldId)
    (hhome : s.home? op = (s.field? f).map (·.table))
    (hnone : ∀ s' : Schema, s'.field? f = none → s'.apply op = .error (.unknownField f))
    (hsome : ∀ a, s.field? f = some a → WorksAt (some a.table) s op) :
    WorksAt (s.home? op) s op := by
  rw [hhome]
  cases ha : s.field? f with
  | none => exact worksAt_of_refused _ fun s' hs => hnone s' (hs.field?_none ha)
  | some a => exact hsome a ha

/-- Whether a table is there is seen from everywhere, so a table that is there may be assumed. -/
theorem worksAt_of_table {op : Operation} (id : TableId)
    (hnone : ∀ s', Alike home s s' → s'.table? id = none → s'.apply op = .error (.unknownTable id))
    (hsome : ∀ t, s.table? id = some t → WorksAt home s op) : WorksAt home s op := by
  cases ht : s.table? id with
  | none => exact worksAt_of_refused _ fun s' hs => hnone s' hs (hs.table?_none ht)
  | some t => exact hsome t ht

theorem worksAt_updateField (s : Schema) (f : FieldId) (settings : List Setting) :
    WorksAt (s.home? (.updateField f settings)) s (.updateField f settings) := by
  apply worksAt_of_field f rfl
  · intro s' hf
    rw [apply, updateField, requireField_of_none hf]
    rfl
  · intro a ha
    apply worksAt_of_modifyField ha id (·.setAll settings) (fun _ => rfl)
      (fun a => a.setAll_label settings) .done (some (.fieldChanged a.table f))
    intro s' _ ha'
    rw [modifyTable_id]
    exact congrArg (Except.map _) (updateField_eq_ok_iff.2 ⟨a, ha', rfl⟩)

theorem worksAt_addRelated (s : Schema) (table related : TableId) :
    WorksAt (some table) s (.addRelated table related) := by
  apply worksAt_of_table table
  · intro s' _ ht
    rw [apply, addRelated, requireTable_of_none ht]
    rfl
  intro t ht
  apply worksAt_of_table related
  · intro s' hs hu
    rw [apply, addRelated, requireTable_eq_ok.2 (hs.table_home ht), requireTable_of_none hu]
    rfl
  intro u hu
  have hok {s' : Schema} (hs : Alike (some table) s s') : s'.apply (.addRelated table related) =
      .ok (Change.map (fun _ => .done) (if related ∈ t.related then ⟨s', (), none⟩
        else ⟨s'.modifyTable table fun t => { t with related := t.related ++ [related] }, (),
          some (.tableChanged table)⟩)) := by
    obtain ⟨u', hu', -⟩ := hs.exists_table hu
    exact congrArg (Except.map _) (addRelated_eq_ok_iff.2 ⟨t, hs.table_home ht, ⟨u', hu'⟩, rfl⟩)
  by_cases hmem : related ∈ t.related
  · apply worksAt_of_idle .done none
    intro s' hs
    rw [hok hs, if_pos hmem]
    rfl
  · apply worksAt_of_modifyTable (fun t => { t with related := t.related ++ [related] })
      (fun _ => rfl) .done (some (.tableChanged table))
    intro s' hs
    rw [hok hs, if_neg hmem]
    rfl

theorem worksAt_bind (s : Schema) (native foreign : FieldId) :
    WorksAt (s.home? (.bind native foreign)) s (.bind native foreign) := by
  apply worksAt_of_field native rfl
  · intro s' hf
    rw [apply, Schema.bind, requireField_of_none hf]
    rfl
  intro a ha
  cases hg : s.field? foreign with
  | none =>
    apply worksAt_of_refused (.unknownField foreign)
    intro s' hs
    rw [apply, Schema.bind, requireField_eq_ok.2 (hs.field_home ha), ok_bind,
      requireField_of_none (hs.field?_none hg)]
    rfl
  | some g =>
    apply worksAt_of_table a.table
    · intro s' hs ht
      obtain ⟨g', hg', -⟩ := hs.exists_field hg
      rw [apply, Schema.bind, requireField_eq_ok.2 (hs.field_home ha), ok_bind,
        requireField_eq_ok.2 hg', ok_bind, requireTable_of_none ht]
      rfl
    intro t ht
    by_cases hmem : g.table ∈ t.related
    · apply worksAt_of_modifyField ha
        (fun t => { t with bindings := t.bindings.insert native foreign })
        (fun f => { f with foreign := some foreign }) (fun _ => rfl) (fun _ => rfl) .done
        (some (.fieldChanged a.table native))
      intro s' hs _
      obtain ⟨g', hg', -, htable⟩ := hs.exists_field hg
      exact congrArg (Except.map _)
        (bind_eq_ok_iff.2 ⟨a, g', t, hs.field_home ha, hg', hs.table_home ht, htable ▸ hmem, rfl⟩)
    · have hno : ¬t.isRelatedTo g.table = true := fun h => hmem (isRelatedTo_iff.1 h)
      -- what the refusal tells of the other table is its name
      have hrefused {s' : Schema} (hs : Alike (some a.table) s s') :
          s'.bind native foreign = s'.requireTable g.table >>= fun u =>
            .error (.unrelatedTable t.name u.name) := by
        obtain ⟨g', hg', -, htable⟩ := hs.exists_field hg
        rw [Schema.bind, requireField_eq_ok.2 (hs.field_home ha), ok_bind,
          requireField_eq_ok.2 hg', ok_bind, requireTable_eq_ok.2 (hs.table_home ht), ok_bind,
          htable, if_neg hno]
      apply worksAt_of_table g.table
      · intro s' hs hu
        rw [apply, hrefused hs, requireTable_of_none hu]
        rfl
      intro u hu
      apply worksAt_of_refused (.unrelatedTable t.name u.name)
      intro s' hs
      obtain ⟨u', hu', hname⟩ := hs.exists_table hu
      rw [apply, hrefused hs, requireTable_eq_ok.2 hu', ok_bind, hname]
      rfl

theorem worksAt_unbind (s : Schema) (native : FieldId) :
    WorksAt (s.home? (.unbind native)) s (.unbind native) := by
  apply worksAt_of_field native rfl
  · intro s' hf
    rw [apply, unbind, requireField_of_none hf]
    rfl
  intro a ha
  apply worksAt_of_modifyField ha
    (fun t => { t with bindings := t.bindings.erase native })
    (fun f => { f with foreign := none }) (fun _ => rfl) (fun _ => rfl) .done
    (some (.fieldChanged a.table native))
  intro s' _ ha'
  exact congrArg (Except.map _) (unbind_eq_ok_iff.2 ⟨a, ha', rfl⟩)

theorem worksAt_setIndex (s : Schema) (table : TableId) (index : String) (field : FieldId) :
    WorksAt (some table) s (.setIndex table index field) := by
  apply worksAt_of_table table
  · intro s' _ ht
    rw [apply, setIndex, requireTable_of_none ht]
    rfl
  intro t ht
  cases hf : s.field? field with
  | none =>
    apply worksAt_of_refused (.unknownField field)
    intro s' hs
    rw [apply, setIndex, requireTable_eq_ok.2 (hs.table_home ht), ok_bind,
      requireField_of_none (hs.field?_none hf)]
    rfl
  | some f =>
    by_cases howned : f.table = table
    · apply worksAt_of_modifyTable
        (fun t => { t with indexes := t.indexes.insert index field }) (fun _ => rfl) .done
        (some (.tableChanged table))
      intro s' hs
      obtain ⟨f', hf', -, htable⟩ := hs.exists_field hf
      exact congrArg (Except.map _)
        (setIndex_eq_ok_iff.2 ⟨t, f', hs.table_home ht, hf', htable.trans howned, rfl⟩)
    · apply worksAt_of_refused (.notOwned t.name f.name)
      intro s' hs
      obtain ⟨f', hf', hname, htable⟩ := hs.exists_field hf
      rw [apply, setIndex, requireTable_eq_ok.2 (hs.table_home ht), ok_bind,
        requireField_eq_ok.2 hf', ok_bind, htable, if_neg howned, hname]
      rfl

/-- To move a field is to exchange two columns of its table, or nothing. -/
theorem worksAt_move {op : Operation} (field : FieldId) (place? : Table → Option Nat)
    (hhome : s.home? op = (s.field? field).map (·.table))
    (happly : ∀ s' : Schema, s'.apply op = (s'.requireField field >>= fun f =>
      s'.requireTable f.table >>= fun t =>
        .ok (((place? t).elim ⟨s', false, none⟩ (s'.swapColumns f.table t)).map .moved))) :
    WorksAt (s.home? op) s op := by
  apply worksAt_of_field field hhome
  · intro s' hf
    rw [happly, requireField_of_none hf]
    rfl
  intro a ha
  apply worksAt_of_table a.table
  · intro s' hs ht
    rw [happly, requireField_eq_ok.2 (hs.field_home ha), ok_bind, requireTable_of_none ht]
    rfl
  intro t ht
  have hok {s' : Schema} (hs : Alike (some a.table) s s') : s'.apply op =
      .ok (((place? t).elim ⟨s', false, none⟩ (s'.swapColumns a.table t)).map .moved) := by
    rw [happly, requireField_eq_ok.2 (hs.field_home ha), ok_bind,
      requireTable_eq_ok.2 (hs.table_home ht), ok_bind]
  cases hplace : place? t with
  | none =>
    apply worksAt_of_idle (.moved false) none
    intro s' hs
    rw [hok hs, hplace]
    rfl
  | some place =>
    by_cases hlast : place + 1 < t.columns.length
    · apply worksAt_of_modifyTable
        (fun t => { t with columns := swapNext place t.columns }) (fun _ => rfl) (.moved true)
        (some (.tableChanged a.table))
      intro s' hs
      rw [hok hs, hplace, Option.elim_some, swapColumns, if_pos hlast]
      rfl
    · apply worksAt_of_idle (.moved false) none
      intro s' hs
      rw [hok hs, hplace, Option.elim_some, swapColumns, if_neg hlast]
      rfl

theorem worksAt_moveUp (s : Schema) (field : FieldId) :
    WorksAt (s.home? (.moveUp field)) s (.moveUp field) := by
  apply worksAt_move field (fun t => (t.position? field).bind Nat.ppred) rfl
  intro s'
  rw [apply, moveUp]
  cases s'.requireField field with
  | error e => rfl
  | ok f =>
    rw [ok_bind, ok_bind]
    dsimp only
    cases s'.requireTable f.table with
    | error e => rfl
    | ok t =>
      rw [ok_bind, ok_bind]
      rcases t.position? field with _ | _ | place <;> rfl

theorem worksAt_moveDown (s : Schema) (field : FieldId) :
    WorksAt (s.home? (.moveDown field)) s (.moveDown field) := by
  apply worksAt_move field (·.position? field) rfl
  intro s'
  rw [apply, moveDown]
  cases s'.requireField field with
  | error e => rfl
  | ok f =>
    rw [ok_bind, ok_bind]
    dsimp only
    cases s'.requireTable f.table with
    | error e => rfl
    | ok t =>
      rw [ok_bind, ok_bind]
      cases t.position? field <;> rfl

/-- An operation that adds nothing works at its home. -/
theorem worksAt_home (s : Schema) {op : Operation} (hop : ¬op.Adds) :
    WorksAt (s.home? op) s op := by
  cases op with
  | addTable name => exact absurd trivial hop
  | addField table name => exact absurd trivial hop
  | updateField field settings => exact worksAt_updateField s field settings
  | addRelated table related => exact worksAt_addRelated s table related
  | bind native foreign => exact worksAt_bind s native foreign
  | unbind native => exact worksAt_unbind s native
  | setIndex table index field => exact worksAt_setIndex s table index field
  | moveUp field => exact worksAt_moveUp s field
  | moveDown field => exact worksAt_moveDown s field

/-- What an operation does at one table is not seen from another. -/
theorem WorksAt.alike_after {op : Operation} {home' : Option TableId} (h : WorksAt home s op)
    (hne : ∀ table, home = some table → home' ≠ some table) : Alike home' s (s.after op) := by
  obtain ⟨edit, reply, hhome, hworks⟩ := h
  rw [(hworks s (alike_refl home s)).2]
  cases edit with
  | none => exact alike_refl home' s
  | some e => exact alike_edited (hne e.home (hhome e rfl)) s

/-- Operations at different tables can change places: they lead to the same schema, and each answers
the same and announces the same, be it the first or the second. -/
theorem after_comm (s : Schema) {op op' : Operation} (hop : ¬op.Adds) (hop' : ¬op'.Adds)
    (hhome : ∀ table, s.home? op = some table → s.home? op' ≠ some table) :
    (s.after op).after op' = (s.after op').after op ∧
      (s.after op').answer op = s.answer op ∧ (s.after op).answer op' = s.answer op' := by
  have hworks := worksAt_home s hop
  have hworks' := worksAt_home s hop'
  have halike := hworks.alike_after hhome
  have halike' := hworks'.alike_after fun table h' h => hhome table h h'
  obtain ⟨edit, reply, hedit, hdoes⟩ := hworks
  obtain ⟨edit', reply', hedit', hdoes'⟩ := hworks'
  obtain ⟨hanswer, hafter⟩ := hdoes s (alike_refl _ s)
  obtain ⟨hanswer', hafter'⟩ := hdoes' s (alike_refl _ s)
  refine ⟨?_, (hdoes _ halike').1.trans hanswer.symm, (hdoes' _ halike).1.trans hanswer'.symm⟩
  rw [(hdoes _ halike').2, (hdoes' _ halike).2, hafter, hafter']
  cases edit with
  | none => rfl
  | some e =>
    cases edit' with
    | none => rfl
    | some e' =>
      have hne : e.home ≠ e'.home := fun he => hhome e.home (hedit e rfl) (he ▸ hedit' e' rfl)
      exact edited_comm hne s

/-- Two tables of which the second is related to the first, with one field each. -/
def pets : Schema := ofHistory [.addTable "person", .addTable "pet", .addField ⟨0⟩ "id",
  .addField ⟨1⟩ "owner", .addRelated ⟨1⟩ ⟨0⟩]

/-- In both orders, the one field can be bound to the other, but not the other to the one. -/
theorem pets_bind_comm :
    (pets.after (.bind ⟨1⟩ ⟨0⟩)).after (.bind ⟨0⟩ ⟨1⟩) =
        (pets.after (.bind ⟨0⟩ ⟨1⟩)).after (.bind ⟨1⟩ ⟨0⟩) ∧
      (pets.after (.bind ⟨0⟩ ⟨1⟩)).answer (.bind ⟨1⟩ ⟨0⟩) =
        .ok (.done, some (.fieldChanged ⟨1⟩ ⟨1⟩)) ∧
      (pets.after (.bind ⟨1⟩ ⟨0⟩)).answer (.bind ⟨0⟩ ⟨1⟩) =
        .error (.unrelatedTable "person" "pet") := by
  have hhome : pets.home? (.bind ⟨1⟩ ⟨0⟩) = some ⟨1⟩ := rfl
  have hhome' : pets.home? (.bind ⟨0⟩ ⟨1⟩) = some ⟨0⟩ := rfl
  have hne : ∀ table, pets.home? (.bind ⟨1⟩ ⟨0⟩) = some table →
      pets.home? (.bind ⟨0⟩ ⟨1⟩) ≠ some table := by
    intro table h
    rw [← h, hhome, hhome']
    decide
  obtain ⟨hafter, hanswer, hanswer'⟩ := after_comm pets id id hne
  exact ⟨hafter, hanswer.trans rfl, hanswer'.trans rfl⟩

end Schema
end Schemata
