import Schemata.Notify.Session
import Schemata.Proofs.Model.Layout

/-!
# What the steps of an operation come to

Wherever an operation refuses, its steps so far have only looked at the schema. Once it has changed
something there is nothing left that could refuse, and its event is fired after the last change. So
the steps of an operation come to what the operation says as a whole.
-/
namespace Schemata
open Schema
variable {α β : Type} {stage stage' : Stage} {s : Schema} {id : TableId} {t : Table}
  {f : FieldId} {a : Field}

/-- How a stage goes on from what an operation says: a refusal leaves it as it is, a change takes
effect, and the event of the change, if there is one, goes to the audience. -/
def Stage.settle (stage : Stage) :
    Except SchemaError (Change α) → Option (Except SchemaError α × Stage)
  | .error e => some (.error e, stage)
  | .ok ⟨schema, reply, none⟩ => some (.ok reply, { stage with schema })
  | .ok ⟨schema, reply, some event⟩ => (stage.audience.notify event).map fun (notes, audience) =>
    (.ok reply, ⟨⟨schema, audience⟩, stage.fired ++ [⟨event, notes⟩]⟩)

namespace Procedure

theorem start_bind (p : Procedure α) (next : α → Procedure β) (stage : Stage) :
    (p >>= next).start stage = (p.start stage).bind fun
      | (.ok x, stage') => (next x).start stage'
      | (.error e, stage') => some (.error e, stage') := by
  change (p.run.run stage).bind _ = _
  unfold start
  rcases p.run.run stage with _ | ⟨_ | x, stage'⟩ <;> rfl

theorem bind_of_ok {p : Procedure α} {x : α} (h : p.start stage = some (.ok x, stage'))
    (next : α → Procedure β) : (p >>= next).start stage = (next x).start stage' := by
  rw [start_bind, h]
  rfl

theorem bind_of_error {p : Procedure α} {e : SchemaError}
    (h : p.start stage = some (.error e, stage')) (next : α → Procedure β) :
    (p >>= next).start stage = some (.error e, stage') := by
  rw [start_bind, h]
  rfl

theorem start_map (p : Procedure α) (g : α → β) (stage : Stage) : (g <$> p).start stage =
    (p.start stage).map fun (answer, stage') => (answer.map g, stage') := by
  rw [map_eq_pure_bind, start_bind]
  rcases p.start stage with _ | ⟨_ | x, stage'⟩ <;> rfl

/-! ### Steps that look -/

theorem start_schema (next : Schema → Procedure β) :
    (schema >>= next).start stage = (next stage.schema).start stage := rfl

theorem start_taken {look : Schema → Option α} {x : α} (h : look stage.schema = some x)
    (next : α → Procedure β) : (taken look >>= next).start stage = (next x).start stage := by
  apply bind_of_ok
  rw [taken, start_schema, h]
  rfl

theorem start_table (ht : stage.schema.table? id = some t) (next : Table → Procedure β) :
    (table id >>= next).start stage = (next t).start stage := start_taken ht next

theorem start_field (hf : stage.schema.field? f = some a) (next : Field → Procedure β) :
    (field f >>= next).start stage = (next a).start stage := start_taken hf next

/-- A procedure says what an operation says that begins with the same question. -/
theorem settle_ask {query : Schema → Except SchemaError α} {p : α → Procedure β}
    {g : α → Except SchemaError (Change β)}
    (h : ∀ x, query stage.schema = .ok x → (p x).start stage = stage.settle (g x)) :
    (ask query >>= p).start stage = stage.settle (query stage.schema >>= g) := by
  cases hx : query stage.schema with
  | ok x =>
    have hask : (ask query).start stage = some (.ok x, stage) := by
      rw [ask, start_schema, hx]
      rfl
    exact (bind_of_ok hask p).trans (h x hx)
  | error e =>
    apply bind_of_error
    rw [ask, start_schema, hx]
    rfl

theorem settle_findTable {p : Table → Procedure β} {g : Table → Except SchemaError (Change β)}
    (h : ∀ t, stage.schema.table? id = some t → (p t).start stage = stage.settle (g t)) :
    (findTable id >>= p).start stage = stage.settle (stage.schema.requireTable id >>= g) :=
  settle_ask fun t ht => h t (requireTable_eq_ok.1 ht)

theorem settle_findField {p : Field → Procedure β} {g : Field → Except SchemaError (Change β)}
    (h : ∀ a, stage.schema.field? f = some a → (p a).start stage = stage.settle (g a)) :
    (findField f >>= p).start stage = stage.settle (stage.schema.requireField f >>= g) :=
  settle_ask fun a ha => h a (requireField_eq_ok.1 ha)

/-- A table that is known to be there passes every check. -/
theorem settle_table (ht : stage.schema.table? id = some t) {p : Table → Procedure β}
    {g : Table → Except SchemaError (Change β)} (h : (p t).start stage = stage.settle (g t)) :
    (table id >>= p).start stage = stage.settle (stage.schema.requireTable id >>= g) := by
  rw [start_table ht, h, requireTable_eq_ok.2 ht]
  rfl

/-! ### Steps that change or announce something -/

theorem start_change (g : Schema → Schema) (next : Unit → Procedure β) :
    (change g >>= next).start stage = (next ()).start { stage with schema := g stage.schema } := rfl

theorem start_changeTable (ht : s.table? id = some t) (g : Table → Table)
    (next : Unit → Procedure β) : (changeTable id g >>= next).start { stage with schema := s } =
      (next ()).start { stage with schema := s.modifyTable id g } := by
  apply bind_of_ok
  have hstage : ({ stage with schema := s } : Stage).schema.table? id = some t := ht
  exact start_table hstage _

theorem start_changeField (hf : s.field? f = some a) (g : Field → Field)
    (next : Unit → Procedure β) : (changeField f g >>= next).start { stage with schema := s } =
      (next ()).start { stage with schema := s.modifyField f g } := by
  apply bind_of_ok
  have hstage : ({ stage with schema := s } : Stage).schema.field? f = some a := hf
  exact start_field hstage _

/-- The last steps of a change: the event is fired in the schema that has been reached. -/
theorem settle_fire (event : Event) (reply : α) :
    (fire event >>= fun _ => pure reply).start { stage with schema := s } =
      stage.settle (.ok ⟨s, reply, some event⟩) := by
  have hfire : (fire event).start { stage with schema := s } =
      (stage.audience.notify event).map fun (notes, audience) =>
        (.ok (), ⟨⟨s, audience⟩, stage.fired ++ [⟨event, notes⟩]⟩) := by
    rw [fire, bind_of_ok rfl]
    dsimp only
    cases stage.audience.notify event <;> rfl
  rw [start_bind, hfire, Stage.settle]
  cases stage.audience.notify event <;> rfl

/-! ### Operations -/

theorem settle_addTable (name : String) (stage : Stage) :
    (addTable name).start stage = stage.settle (stage.schema.addTable name) := by
  rw [addTable, start_schema, Schema.addTable]
  cases stage.schema.tableNamed? name with
  | some id => rfl
  | none => exact settle_fire _ _

theorem settle_addField (table : TableId) (name : String) (stage : Stage) :
    (addField table name).start stage = stage.settle (stage.schema.addField table name) := by
  refine settle_findTable fun t ht => ?_
  rw [start_schema]
  cases stage.schema.fieldNamed? table name with
  | some id => exact start_table ht _
  | none =>
    -- the new field is no column yet when the table is changed
    have hgrown : ({ stage.schema with fields := stage.schema.fields ++ [{ name, table }] } :
        Schema).table? table = some t := ht
    rw [start_schema, start_change, start_changeTable hgrown]
    exact settle_fire _ _

theorem settle_updateField (f : FieldId) (settings : List Setting) (stage : Stage) :
    (updateField f settings).start stage = stage.settle (stage.schema.updateField f settings) := by
  refine settle_findField fun a ha => ?_
  have hset : (stage.schema.modifyField f (·.setAll settings)).field? f =
      some (a.setAll settings) := by
    rw [field?_modifyField, if_pos rfl, ha]
    rfl
  -- the owner is read off the field as it is now, which settings leave alone
  have htable : (a.setAll settings).table = a.table := congrArg Prod.snd (a.setAll_label settings)
  rw [start_changeField ha, start_field hset, htable]
  exact settle_fire _ _

theorem settle_addRelated (table related : TableId) (stage : Stage) :
    (addRelated table related).start stage =
      stage.settle (stage.schema.addRelated table related) := by
  refine settle_findTable fun t ht => settle_findTable fun u _ => ?_
  rw [start_table ht]
  split
  · rfl
  · rw [start_changeTable ht]
    exact settle_fire _ _

theorem settle_bindForeign (hl : Layout stage.schema) (native foreign : FieldId) :
    (bindForeign native foreign).start stage =
      stage.settle (stage.schema.bind native foreign) := by
  refine settle_findField fun a ha => settle_findField fun b hb => ?_
  obtain ⟨t, ht⟩ := hl.hasTable ha
  obtain ⟨u, hu⟩ := hl.hasTable hb
  refine settle_table ht ?_
  split
  · rw [start_changeTable ht, start_changeField (s := stage.schema.modifyTable a.table _) ha]
    exact settle_fire _ _
  · rw [start_table ht]
    exact settle_table hu rfl

theorem settle_unbind (hl : Layout stage.schema) (native : FieldId) :
    (unbind native).start stage = stage.settle (stage.schema.unbind native) := by
  refine settle_findField fun a ha => ?_
  obtain ⟨t, ht⟩ := hl.hasTable ha
  rw [start_changeTable ht, start_changeField (s := stage.schema.modifyTable a.table _) ha]
  exact settle_fire _ _

theorem settle_setIndex (id : TableId) (index : String) (field : FieldId) (stage : Stage) :
    (setIndex id index field).start stage =
      stage.settle (stage.schema.setIndex id index field) := by
  refine settle_findTable fun t ht => settle_findField fun a _ => ?_
  split
  · rw [start_changeTable ht]
    exact settle_fire _ _
  · exact start_table ht _

theorem settle_swapColumns (ht : stage.schema.table? id = some t) {source target place : Nat}
    (h : source = place ∧ target = place + 1 ∨ source = place + 1 ∧ target = place) :
    (swapColumns id source target).start stage =
      stage.settle (.ok (stage.schema.swapColumns id t place)) := by
  have hmin : min source target = place := by omega
  have hpast : t.columns.length ≤ source ∨ t.columns.length ≤ target ↔
      ¬place + 1 < t.columns.length := by omega
  rw [swapColumns, start_table ht]
  dsimp only
  rw [hmin, if_congr hpast rfl rfl, ite_not, Schema.swapColumns]
  split
  · rw [start_changeTable ht]
    exact settle_fire _ _
  · rfl

theorem settle_moveUp (hl : Layout stage.schema) (f : FieldId) :
    (moveUp f).start stage = stage.settle (stage.schema.moveUp f) := by
  refine settle_findField fun a ha => ?_
  obtain ⟨t, ht⟩ := hl.hasTable ha
  refine settle_table ht ?_
  rcases t.position? f with _ | _ | place
  · rfl
  · rfl
  · exact settle_swapColumns ht (.inr ⟨rfl, rfl⟩)

theorem settle_moveDown (hl : Layout stage.schema) (f : FieldId) :
    (moveDown f).start stage = stage.settle (stage.schema.moveDown f) := by
  refine settle_findField fun a ha => ?_
  obtain ⟨t, ht⟩ := hl.hasTable ha
  refine settle_table ht ?_
  cases t.position? f with
  | none => rfl
  | some place => exact settle_swapColumns ht (.inl ⟨rfl, rfl⟩)

end Procedure

namespace Stage

theorem settle_map (stage : Stage) (r : Except SchemaError (Change α)) (g : α → β) :
    stage.settle (r.map (·.map g)) =
      (stage.settle r).map fun (answer, stage') => (answer.map g, stage') := by
  rcases r with e | ⟨s, reply, _ | event⟩
  · rfl
  · rfl
  · change Option.map _ _ = Option.map _ (Option.map _ _)
    rw [Option.map_map]
    rfl

/-- Where every field has its table, the steps of an operation come to what the operation says. -/
theorem start_procedure (hl : Layout stage.schema) (op : Operation) :
    op.procedure.start stage = stage.settle (stage.schema.apply op) := by
  have hmap {α : Type} {p : Procedure α} {r : Except SchemaError (Change α)}
      (h : p.start stage = stage.settle r) (g : α → Reply) :
      (g <$> p).start stage = stage.settle (r.map (·.map g)) := by
    rw [Procedure.start_map, settle_map, h]
  cases op with
  | addTable name => exact hmap (Procedure.settle_addTable name stage) _
  | addField table name => exact hmap (Procedure.settle_addField table name stage) _
  | updateField field settings => exact hmap (Procedure.settle_updateField field settings stage) _
  | addRelated table related => exact hmap (Procedure.settle_addRelated table related stage) _
  | bind native foreign => exact hmap (Procedure.settle_bindForeign hl native foreign) _
  | unbind native => exact hmap (Procedure.settle_unbind hl native) _
  | setIndex table index field => exact hmap (Procedure.settle_setIndex table index field stage) _
  | moveUp field => exact hmap (Procedure.settle_moveUp hl field) _
  | moveDown field => exact hmap (Procedure.settle_moveDown hl field) _

end Stage
end Schemata
