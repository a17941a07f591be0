import Schemata.Proofs.Keyed
import Schemata.Proofs.Notify.Session

/-!
# What an operation announces

An operation is refused, finds that there is nothing to do, or makes one change and announces it
once. In the first two cases nothing changes. In the third, what differs afterwards can be told from
the event alone, so a listener that looks again at what the event names has seen all of the change.
-/
namespace Schemata

/-- The table that an event is about. -/
def Event.table : Event → TableId
  | .tableAdded table => table
  | .tableChanged table => table
  | .fieldChanged table _ => table

namespace Schema
variable {s s' : Schema} {id : TableId} {t : Table} {f : FieldId} {a : Field}

/-- Between two schemata nothing differs but what the event names. -/
structure Announces (s s' : Schema) (event : Event) : Prop where
  /-- The table that the event is about is there afterwards. -/
  present : ∃ t, s'.table? event.table = some t
  /-- A table that differs is the one that the event is about. -/
  tables : ∀ id, s'.table? id ≠ s.table? id → id = event.table
  /-- A field that differs is a field of this table, and belonged to no other one before. -/
  fields : ∀ f, s'.field? f ≠ s.field? f → (∃ a, s'.field? f = some a ∧ a.table = event.table) ∧
    ∀ a, s.field? f = some a → a.table = event.table
  /-- If the event names a field, this field alone may differ, and of its table just what this field
  is bound to. -/
  single : ∀ id f, event = .fieldChanged id f →
    (∃ a, s'.field? f = some a ∧ a.table = id) ∧ (∀ g, s'.field? g ≠ s.field? g → g = f) ∧
    ∃ t b, s.table? id = some t ∧ s'.table? id = some { t with bindings := b } ∧
      ∀ n, n ≠ f → b.get? n = t.boundTo? n

/-- The operations that are accepted without a change, with what they answer. -/
inductive Idle (s : Schema) : Operation → Reply → Prop
  | related {table related : TableId} {t : Table} (ht : s.table? table = some t)
    (h : related ∈ t.related) : Idle s (.addRelated table related) .done
  | first (field : FieldId) : Idle s (.moveUp field) (.moved false)
  | last (field : FieldId) : Idle s (.moveDown field) (.moved false)

/-! ### Single changes -/

theorem announces_withTable (s : Schema) (name : String) :
    Announces s (s.withTable name) (.tableAdded ⟨s.tables.length⟩) where
  present := ⟨{ name }, by simp [table?_withTable, Event.table]⟩
  tables id h := by
    by_contra hid
    have hne : id.index ≠ s.tables.length := fun he => hid (congrArg TableId.mk he)
    exact h (by rw [table?_withTable, if_neg hne])
  fields f h := absurd rfl h
  single id f h := by cases h

theorem announces_withField (ht : s.table? id = some t) (name : String) :
    Announces s (s.withField id name) (.tableChanged id) where
  present := ⟨_, by rw [Event.table, table?_withField, if_pos rfl, ht]; rfl⟩
  tables other h := by
    by_contra hid
    change other ≠ id at hid
    exact h (by rw [table?_withField, if_neg hid])
  fields f h := by
    rw [field?_withField] at h ⊢
    by_cases hf : f.index = s.fields.length
    · have hnone : s.field? f = none := List.getElem?_eq_none (Nat.le_of_eq hf.symm)
      rw [if_pos hf, hnone]
      exact ⟨⟨_, rfl, rfl⟩, fun a ha => by cases ha⟩
    · rw [if_neg hf] at h
      exact absurd rfl h
  single id f h := by cases h

theorem announces_modifyTable (ht : s.table? id = some t) (f : Table → Table) :
    Announces s (s.modifyTable id f) (.tableChanged id) where
  present := ⟨f t, by rw [Event.table, table?_modifyTable, if_pos rfl, ht]; rfl⟩
  tables other h := by
    by_contra hid
    change other ≠ id at hid
    exact h (by rw [table?_modifyTable, if_neg hid])
  fields f h := absurd rfl h
  single id f h := by cases h

/-- One field may get a new record and a new binding, as long as it stays in its table. -/
theorem announces_field (hf : s.field? f = some a) (ht : s.table? a.table = some t)
    {b : Keyed FieldId FieldId} (hb : ∀ n, n ≠ f → b.get? n = t.boundTo? n)
    (htable : s'.table? a.table = some { t with bindings := b })
    (htables : ∀ id, id ≠ a.table → s'.table? id = s.table? id)
    (hfield : ∃ a', s'.field? f = some a' ∧ a'.table = a.table)
    (hfields : ∀ g, g ≠ f → s'.field? g = s.field? g) :
    Announces s s' (.fieldChanged a.table f) where
  present := ⟨_, htable⟩
  tables id h := by
    by_contra hid
    exact h (htables id hid)
  fields g h := by
    have hg : g = f := by
      by_contra hg
      exact h (hfields g hg)
    subst hg
    exact ⟨hfield, fun a' ha' => by cases hf.symm.trans ha'; rfl⟩
  single id g h := by
    cases h
    refine ⟨hfield, ?_, t, b, ht, htable, hb⟩
    intro g h
    by_contra hg
    exact h (hfields g hg)

theorem announces_modifyField (hf : s.field? f = some a) (ht : s.table? a.table = some t)
    {g : Field → Field} (hg : (g a).table = a.table) :
    Announces s (s.modifyField f g) (.fieldChanged a.table f) := by
  apply announces_field hf ht (b := t.bindings)
  · exact fun n _ => rfl
  · exact ht
  · exact fun id _ => rfl
  · exact ⟨g a, by rw [field?_modifyField, if_pos rfl, hf]; rfl, hg⟩
  · intro h hh
    rw [field?_modifyField, if_neg hh]

/-- To bind a field and to free it are both of this form. -/
theorem announces_rebind (hf : s.field? f = some a) (ht : s.table? a.table = some t)
    (bindings : Table → Keyed FieldId FieldId) (foreign : Option FieldId)
    (hb : ∀ n, n ≠ f → (bindings t).get? n = t.boundTo? n) :
    Announces s ((s.modifyTable a.table fun t => { t with bindings := bindings t }).modifyField f
      fun a => { a with foreign }) (.fieldChanged a.table f) := by
  apply announces_field hf ht hb
  · rw [table?_modifyField, table?_modifyTable, if_pos rfl, ht]
    rfl
  · intro id hid
    rw [table?_modifyField, table?_modifyTable, if_neg hid]
  · refine ⟨{ a with foreign }, ?_, rfl⟩
    rw [field?_modifyField, if_pos rfl, field?_modifyTable, hf]
    rfl
  · intro g hg
    rw [field?_modifyField, if_neg hg, field?_modifyTable]

/-! ### Operations -/

/-- An accepted operation was idle and changed nothing, or its change is announced. -/
def Accounted (s : Schema) (op : Operation) (c : Change Reply) : Prop :=
  (Idle s op c.reply ∧ c.event = none ∧ c.schema = s) ∨
    (¬Idle s op c.reply ∧ ∃ event, c.event = some event ∧ Announces s c.schema event)

theorem accounted_swapColumns (ht : s.table? id = some t) {op : Operation}
    (hidle : ∀ moved, Idle s op (.moved moved) ↔ moved = false) (place : Nat) :
    Accounted s op ((s.swapColumns id t place).map .moved) := by
  unfold swapColumns
  split
  · refine .inr ⟨fun h => ?_, _, rfl, announces_modifyTable ht _⟩
    cases (hidle true).1 h
  · exact .inl ⟨(hidle false).2 rfl, rfl, rfl⟩

theorem idle_moveUp (moved : Bool) : Idle s (.moveUp f) (.moved moved) ↔ moved = false := by
  constructor
  · rintro ⟨⟩
    rfl
  · rintro rfl
    exact .first f

theorem idle_moveDown (moved : Bool) : Idle s (.moveDown f) (.moved moved) ↔ moved = false := by
  constructor
  · rintro ⟨⟩
    rfl
  · rintro rfl
    exact .last f

theorem accounted_apply (hs : Reachable s) {op : Operation} {c : Change Reply}
    (h : s.apply op = .ok c) : Accounted s op c := by
  have hl := layout_invariant.holds hs
  cases op <;> obtain ⟨d, hd, rfl⟩ := map_eq_ok.1 h
  case addTable name =>
    obtain ⟨-, rfl⟩ := addTable_eq_ok_iff.1 hd
    exact .inr ⟨nofun, _, rfl, announces_withTable s name⟩
  case addField table name =>
    obtain ⟨t, ht, -, rfl⟩ := addField_eq_ok_iff.1 hd
    exact .inr ⟨nofun, _, rfl, announces_withField ht name⟩
  case updateField f settings =>
    obtain ⟨a, ha, rfl⟩ := updateField_eq_ok_iff.1 hd
    obtain ⟨t, ht⟩ := hl.hasTable ha
    have htable : (a.setAll settings).table = a.table :=
      congrArg Prod.snd (a.setAll_label settings)
    exact .inr ⟨nofun, _, rfl, announces_modifyField ha ht htable⟩
  case addRelated table related =>
    obtain ⟨t, ht, -, rfl⟩ := addRelated_eq_ok_iff.1 hd
    by_cases hm : related ∈ t.related
    · rw [if_pos hm]
      exact .inl ⟨.related ht hm, rfl, rfl⟩
    · rw [if_neg hm]
      refine .inr ⟨?_, _, rfl, announces_modifyTable ht _⟩
      rintro ⟨ht', hm'⟩
      cases ht.symm.trans ht'
      exact hm hm'
  case bind native foreign =>
    obtain ⟨a, g, t, ha, -, ht, -, rfl⟩ := bind_eq_ok_iff.1 hd
    refine .inr ⟨nofun, _, rfl, announces_rebind ha ht (·.bindings.insert native foreign) _ ?_⟩
    intro n hn
    rw [Keyed.get?_insert, if_neg hn, Table.boundTo?]
  case unbind native =>
    obtain ⟨a, ha, rfl⟩ := unbind_eq_ok_iff.1 hd
    obtain ⟨t, ht⟩ := hl.hasTable ha
    refine .inr ⟨nofun, _, rfl, announces_rebind ha ht (·.bindings.erase native) _ ?_⟩
    intro n hn
    rw [Keyed.get?_erase, if_neg hn, Table.boundTo?]
  case setIndex table index field =>
    obtain ⟨t, a, ht, -, -, rfl⟩ := setIndex_eq_ok_iff.1 hd
    exact .inr ⟨nofun, _, rfl, announces_modifyTable ht _⟩
  case moveUp field =>
    obtain ⟨a, t, -, ht, rfl⟩ := moveUp_eq_ok_iff.1 hd
    rcases t.position? field with _ | _ | place
    · exact .inl ⟨.first field, rfl, rfl⟩
    · exact .inl ⟨.first field, rfl, rfl⟩
    · exact accounted_swapColumns ht idle_moveUp place
  case moveDown field =>
    obtain ⟨a, t, -, ht, rfl⟩ := moveDown_eq_ok_iff.1 hd
    cases t.position? field with
    | none => exact .inl ⟨.last field, rfl, rfl⟩
    | some place => exact accounted_swapColumns ht idle_moveDown place

/-! ### Sessions -/

/-- What is done in a session whose fields have their tables. -/
theorem perform_eq (hl : Layout s) (op : Operation) (audience : Audience) :
    (⟨s, audience⟩ : Session).perform op =
      ((⟨⟨s, audience⟩, []⟩ : Stage).settle (s.apply op)).map fun (answer, stage) =>
        ⟨answer, stage.fired, stage.toSession⟩ := by
  have hstart : op.procedure.start ⟨⟨s, audience⟩, []⟩ =
      (⟨⟨s, audience⟩, []⟩ : Stage).settle (s.apply op) := Stage.start_procedure hl op
  rw [Session.perform, hstart]
  cases (⟨⟨s, audience⟩, []⟩ : Stage).settle (s.apply op) <;> rfl

/-- If an operation ends, the schema of the session is what the operation makes of it. -/
theorem perform_after (hl : Layout s) (op : Operation) (audience : Audience) :
    (⟨s, audience⟩ : Session).perform op = none ∨
      ∃ p, (⟨s, audience⟩ : Session).perform op = some p ∧ p.session.schema = s.after op := by
  rw [perform_eq hl, after]
  rcases s.apply op with e | ⟨s', reply, _ | event⟩
  · exact .inr ⟨_, rfl, rfl⟩
  · exact .inr ⟨_, rfl, rfl⟩
  · rw [Stage.settle]
    cases audience.notify event with
    | none => exact .inl rfl
    | some delivered => exact .inr ⟨_, rfl, rfl⟩

theorem performAll_after (hs : Reachable s) (ops : List Operation) (audience : Audience) :
    (⟨s, audience⟩ : Session).performAll ops = none ∨ ∃ session,
      (⟨s, audience⟩ : Session).performAll ops = some session ∧
        session.schema = ops.foldl after s := by
  induction ops generalizing s audience with
  | nil => exact .inr ⟨_, rfl, rfl⟩
  | cons op ops ih =>
    rw [Session.performAll]
    obtain hnone | ⟨⟨answer, fired, s', audience'⟩, hp, rfl⟩ :=
      perform_after (layout_invariant.holds hs) op audience
    · rw [hnone]
      exact .inl rfl
    · rw [hp]
      exact ih (hs.after op) audience'

/-- Whoever listens: operations carried out one after the other lead through the schemata of a
history. After any history a refused operation leaves the schema as it is and nobody is called; an
idle one too; and every other one delivers one event, which names all that differs. -/
theorem perform_announces (ops : List Operation) (op : Operation) :
    (∀ audience, ({ audience } : Session).performAll ops = none ∨ ∃ session,
      ({ audience } : Session).performAll ops = some session ∧ session.schema = ofHistory ops) ∧
    ((∃ e, ∀ audience, (⟨ofHistory ops, audience⟩ : Session).perform op =
      some ⟨.error e, [], ofHistory ops, audience⟩) ∨
    (∃ reply, Idle (ofHistory ops) op reply ∧ ∀ audience,
      (⟨ofHistory ops, audience⟩ : Session).perform op =
        some ⟨.ok reply, [], ofHistory ops, audience⟩) ∨
    ∃ reply s' event, ¬Idle (ofHistory ops) op reply ∧ Announces (ofHistory ops) s' event ∧
      ∀ audience, (⟨ofHistory ops, audience⟩ : Session).perform op =
        (audience.notify event).map fun delivered =>
          ⟨.ok reply, [⟨event, delivered.1⟩], s', delivered.2⟩) := by
  refine ⟨fun audience => performAll_after reachable_empty ops audience, ?_⟩
  have hl := layout_invariant.ofHistory ops
  cases h : (ofHistory ops).apply op with
  | error e =>
    refine .inl ⟨e, fun audience => ?_⟩
    rw [perform_eq hl, h]
    rfl
  | ok c =>
    obtain ⟨s', reply, event⟩ := c
    rcases accounted_apply ⟨ops, rfl⟩ h with ⟨hidle, rfl, rfl⟩ | ⟨hbusy, event, rfl, hframe⟩
    · refine .inr (.inl ⟨reply, hidle, fun audience => ?_⟩)
      rw [perform_eq hl, h]
      rfl
    · refine .inr (.inr ⟨reply, s', event, hbusy, hframe, fun audience => ?_⟩)
      rw [perform_eq hl, h]
      exact Option.map_map ..

end Schema
end Schemata
