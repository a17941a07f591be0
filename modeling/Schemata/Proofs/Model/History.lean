import Schemata.Proofs.Model.Steps

/-!
# Histories of a schema

A history is any sequence of operations, accepted or refused. What holds of the empty schema and is
kept by each kind of change holds after every history.
-/
namespace Schemata.Schema

/-- The schema once an operation has been asked for; a refusal leaves it alone. -/
def after (s : Schema) (op : Operation) : Schema :=
  match s.apply op with
  | .ok c => c.schema
  | .error _ => s

def ofHistory (ops : List Operation) : Schema := ops.foldl after {}

def Reachable (s : Schema) : Prop := ∃ ops, ofHistory ops = s

theorem reachable_empty : Reachable {} := ⟨[], rfl⟩

variable {s : Schema}

theorem Reachable.after (h : Reachable s) (op : Operation) : Reachable (s.after op) := by
  obtain ⟨ops, rfl⟩ := h
  exact ⟨ops ++ [op], by simp [ofHistory]⟩

theorem Reachable.apply (h : Reachable s) (op : Operation) {c : Change Reply}
    (hc : s.apply op = .ok c) : Reachable c.schema := by
  have ha := h.after op
  rwa [Schema.after, hc] at ha

theorem Reachable.addTable (h : Reachable s) {name : String} {c : Change TableId}
    (hc : s.addTable name = .ok c) : Reachable c.schema :=
  h.apply (.addTable name) (map_eq_ok.2 ⟨c, hc, rfl⟩)

theorem Reachable.addField (h : Reachable s) {table : TableId} {name : String}
    {c : Change FieldId} (hc : s.addField table name = .ok c) : Reachable c.schema :=
  h.apply (.addField table name) (map_eq_ok.2 ⟨c, hc, rfl⟩)

theorem Reachable.updateField (h : Reachable s) {field : FieldId} {settings : List Setting}
    {c : Change Unit} (hc : s.updateField field settings = .ok c) : Reachable c.schema :=
  h.apply (.updateField field settings) (map_eq_ok.2 ⟨c, hc, rfl⟩)

theorem Reachable.addRelated (h : Reachable s) {table related : TableId} {c : Change Unit}
    (hc : s.addRelated table related = .ok c) : Reachable c.schema :=
  h.apply (.addRelated table related) (map_eq_ok.2 ⟨c, hc, rfl⟩)

theorem Reachable.bind (h : Reachable s) {native foreign : FieldId} {c : Change Unit}
    (hc : s.bind native foreign = .ok c) : Reachable c.schema :=
  h.apply (.bind native foreign) (map_eq_ok.2 ⟨c, hc, rfl⟩)

/-- Kept by every kind of change that an accepted operation makes. Each kind comes with the
conditions under which it is made, and the schema before it is itself reachable. -/
structure Invariant (P : Schema → Prop) : Prop where
  empty : P {}
  addTable : ∀ {s : Schema} {name : String}, Reachable s → P s →
    (∀ t ∈ s.tables, t.name ≠ name) → P (s.withTable name)
  addField : ∀ {s : Schema} {table : TableId} {t : Table} {name : String}, Reachable s → P s →
    s.table? table = some t → (∀ g ∈ t.columns, ∀ f, s.field? g = some f → f.name ≠ name) →
    P (s.withField table name)
  updateField : ∀ {s : Schema} {id : FieldId} {f : Field} (settings : List Setting),
    Reachable s → P s → s.field? id = some f → P (s.modifyField id (·.setAll settings))
  addRelated : ∀ {s : Schema} {table related : TableId} {t u : Table}, Reachable s → P s →
    s.table? table = some t → s.table? related = some u → related ∉ t.related →
    P (s.modifyTable table fun t => { t with related := t.related ++ [related] })
  bind : ∀ {s : Schema} {native foreign : FieldId} {f g : Field} {t : Table}, Reachable s → P s →
    s.field? native = some f → s.field? foreign = some g → s.table? f.table = some t →
    g.table ∈ t.related → P (s.withBinding f.table native foreign)
  unbind : ∀ {s : Schema} {native : FieldId} {f : Field}, Reachable s → P s →
    s.field? native = some f → P (s.withoutBinding f.table native)
  setIndex : ∀ {s : Schema} {index : String} {field : FieldId} {f : Field}, Reachable s → P s →
    s.field? field = some f →
    P (s.modifyTable f.table fun t => { t with indexes := t.indexes.insert index field })
  swap : ∀ {s : Schema} (table : TableId) (place : Nat), Reachable s → P s →
    P (s.modifyTable table fun t => { t with columns := swapNext place t.columns })

theorem Invariant.swapColumns {P : Schema → Prop} (inv : Invariant P) (hr : Reachable s)
    (hs : P s) (table : TableId) (t : Table) (place : Nat) :
    P (s.swapColumns table t place).schema := by
  unfold Schema.swapColumns
  split
  · exact inv.swap table place hr hs
  · exact hs

theorem Invariant.step {P : Schema → Prop} (inv : Invariant P) (hr : Reachable s) (hs : P s)
    {op : Operation} {c : Change Reply} (h : s.apply op = .ok c) : P c.schema := by
  cases op <;> obtain ⟨d, hd, rfl⟩ := map_eq_ok.1 h
  case addTable name =>
    obtain ⟨hfresh, rfl⟩ := addTable_eq_ok_iff.1 hd
    exact inv.addTable hr hs hfresh
  case addField table name =>
    obtain ⟨t, ht, hfresh, rfl⟩ := addField_eq_ok_iff.1 hd
    exact inv.addField hr hs ht hfresh
  case updateField id settings =>
    obtain ⟨f, hf, rfl⟩ := updateField_eq_ok_iff.1 hd
    exact inv.updateField settings hr hs hf
  case addRelated table related =>
    obtain ⟨t, ht, ⟨u, hu⟩, rfl⟩ := addRelated_eq_ok_iff.1 hd
    by_cases hm : related ∈ t.related
    · rw [if_pos hm]
      exact hs
    · rw [if_neg hm]
      exact inv.addRelated hr hs ht hu hm
  case bind native foreign =>
    obtain ⟨f, g, t, hf, hg, ht, hrel, rfl⟩ := bind_eq_ok_iff.1 hd
    exact inv.bind hr hs hf hg ht hrel
  case unbind native =>
    obtain ⟨f, hf, rfl⟩ := unbind_eq_ok_iff.1 hd
    exact inv.unbind hr hs hf
  case setIndex table index field =>
    obtain ⟨t, f, -, hf, rfl, rfl⟩ := setIndex_eq_ok_iff.1 hd
    exact inv.setIndex hr hs hf
  case moveUp field =>
    obtain ⟨f, t, -, -, rfl⟩ := moveUp_eq_ok_iff.1 hd
    rcases t.position? field with _ | _ | place
    · exact hs
    · exact hs
    · exact inv.swapColumns hr hs f.table t place
  case moveDown field =>
    obtain ⟨f, t, -, -, rfl⟩ := moveDown_eq_ok_iff.1 hd
    cases t.position? field with
    | none => exact hs
    | some place => exact inv.swapColumns hr hs f.table t place

theorem Invariant.after {P : Schema → Prop} (inv : Invariant P) (hr : Reachable s) (hs : P s)
    (op : Operation) : P (s.after op) := by
  unfold Schema.after
  cases h : s.apply op with
  | ok c => exact inv.step hr hs h
  | error e => exact hs

theorem Invariant.foldl {P : Schema → Prop} (inv : Invariant P) (ops : List Operation)
    (hr : Reachable s) (hs : P s) : P (ops.foldl Schema.after s) := by
  induction ops generalizing s with
  | nil => exact hs
  | cons op ops ih => exact ih (hr.after op) (inv.after hr hs op)

theorem Invariant.ofHistory {P : Schema → Prop} (inv : Invariant P) (ops : List Operation) :
    P (ofHistory ops) := inv.foldl ops reachable_empty inv.empty

theorem Invariant.holds {P : Schema → Prop} (inv : Invariant P) (h : Reachable s) : P s := by
  obtain ⟨ops, rfl⟩ := h
  exact inv.ofHistory ops

end Schemata.Schema
