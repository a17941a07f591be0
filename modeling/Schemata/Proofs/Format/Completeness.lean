import Schemata.Ddl.Printer
import Schemata.Proofs.Ddl.Definition
import Schemata.Proofs.SaveFile.Representable
import Schemata.SaveFile.Printer

/-!
# Writers find every id

Whatever tables of a reachable schema are asked for, in any order, repeatedly or without being
there, the writers of both output formats find all that they look up for tables that are there. What
they refuse is what they were asked for: an unknown table, or for a save file a name or a default
that would not come back.
-/
namespace Schemata
open Schema
variable {s : Schema} {selection : List TableId}

/-- Ids in the records of a schema lead to records. -/
structure Linked (s : Schema) : Prop where
  columns : ∀ id t, s.table? id = some t → ∀ f ∈ t.columns, ∃ a, s.field? f = some a
  owners : ∀ f a, s.field? f = some a → ∃ t, s.table? a.table = some t
  foreign : ∀ f a g, s.field? f = some a → a.foreign = some g → ∃ b, s.field? g = some b
  bound : ∀ id t f g, s.table? id = some t → t.boundTo? f = some g → ∃ b, s.field? g = some b

theorem linked_of_reachable (hs : Reachable s) : Linked s := by
  have hl := layout_invariant.holds hs
  have hforeign : ∀ f a g, s.field? f = some a → a.foreign = some g →
      ∃ b, s.field? g = some b := by
    intro f a g ha hg
    obtain ⟨_, ⟨b, hb, -⟩, -⟩ := references_invariant.holds hs f a ha g hg
    exact ⟨b, hb⟩
  refine ⟨fun id t ht f hf => ?_, fun f a ha => hl.hasTable ha, hforeign, ?_⟩
  · obtain ⟨a, ha, -⟩ := (hl.mem_columns ht f).1 hf
    exact ⟨a, ha⟩
  · intro id t f g ht hg
    obtain ⟨a, ha, -, hag⟩ := (bindings_invariant.holds hs id t ht f g).1 hg
    exact hforeign f a g ha hag

/-! ### Save files -/

namespace SaveFile

theorem judged_writeSchema (hl : Layout s) (selection : List TableId) :
    Judged (offences s selection) (fun _ => True) (writeSchema s selection).outcome := by
  apply (judged_ofSchema hl selection).carry
  · intro e he
    change ((ofSchema s selection).bind _).outcome = _
    rw [Report.bind, he]
  · intro file hfile _
    exact ⟨file.render, outcome_bind_eq_ok.2 ⟨file, hfile, rfl⟩, trivial⟩

/-- How a selection is saved. -/
structure Saves (s : Schema) (selection : List TableId) : Prop where
  complete : ∀ n, Numbers.ofSelection s selection = .ok n → Complete s selection n
  accepted : (∃ text, (writeSchema s selection).outcome = .ok text) ↔ Representable s selection
  refused : ∀ e, (writeSchema s selection).outcome = .error e ↔
    (offences s selection).head? = some e
  noDangling : ∀ f, (writeSchema s selection).outcome ≠ .error (.danglingField f)

theorem saves_of_layout (hl : Layout s) (selection : List TableId) : Saves s selection where
  complete _ hn := complete_ofSelection hl hn
  accepted := (judged_writeSchema hl selection).exists_ok_iff.trans (offences_eq_nil_iff hl)
  refused _ := (judged_writeSchema hl selection).error_iff
  noDangling _ h := danglingField_not_mem_offences
    (List.mem_of_head? ((judged_writeSchema hl selection).error_iff.1 h))

end SaveFile

/-! ### Scripts -/

namespace Ddl

/-- The tables of a selection that are not there. -/
def unknownTables (s : Schema) (selection : List TableId) : List BuildError :=
  selection.flatMap fun id => faultIf (s.table? id = none) (.unknownTable id)

theorem unknownTables_eq_nil_iff :
    unknownTables s selection = [] ↔ ∀ id ∈ selection, ∃ t, s.table? id = some t := by
  simp [unknownTables, List.flatMap_eq_nil_iff, faultIf_eq_nil, Option.ne_none_iff_exists']

theorem judged_writeSchema (hs : Reachable s) (selection : List TableId) (name : String) :
    Judged (unknownTables s selection) (fun _ => True)
      (writeSchema s selection (some name)) := by
  have hknown : Judged (unknownTables s selection) (fun _ => True)
      (selection.forM fun id => do let _ ← s.writtenTable id) := by
    apply Judged.forM
    intro id _
    unfold writtenTable
    cases s.table? id with
    | none => exact .refused _ []
    | some t => exact .accepted trivial
  apply hknown.carry
  · intro e he
    change (script s selection name).map scriptText = .error e
    rw [script, he]
    rfl
  · intro _ hall _
    have hselection : ∀ id ∈ selection, id ∈ s.tableIds := fun id hid =>
      mem_tableIds.2 (unknownTables_eq_nil_iff.1 (hknown.exists_ok_iff.1 ⟨_, hall⟩) id hid)
    exact ⟨_, writeSchema_eq_ok hs hselection name, trivial⟩

/-- How a selection is defined in a script. -/
structure Defines (s : Schema) (selection : List TableId) : Prop where
  unnamed : writeSchema s selection none = .error .missingDatabaseName
  accepted : ∀ name, (∃ text, writeSchema s selection (some name) = .ok text) ↔
    ∀ id ∈ selection, ∃ t, s.table? id = some t
  refused : ∀ name e, writeSchema s selection (some name) = .error e ↔
    (unknownTables s selection).head? = some e
  noDangling : ∀ database f, writeSchema s selection database ≠ .error (.danglingField f)

theorem defines_of_reachable (hs : Reachable s) (selection : List TableId) :
    Defines s selection where
  unnamed := rfl
  accepted name := (judged_writeSchema hs selection name).exists_ok_iff.trans
    unknownTables_eq_nil_iff
  refused name e := (judged_writeSchema hs selection name).error_iff
  noDangling database f h := by
    cases database with
    | none => cases h
    | some name =>
      have hmem := List.mem_of_head? ((judged_writeSchema hs selection name).error_iff.1 h)
      obtain ⟨id, -, hid⟩ := List.mem_flatMap.1 hmem
      unfold faultIf at hid
      split at hid <;> simp at hid

end Ddl

/-- After any history and for any selection. -/
theorem writers_find_ids (ops : List Operation) (selection : List TableId) :
    Linked (ofHistory ops) ∧ SaveFile.Saves (ofHistory ops) selection ∧
      Ddl.Defines (ofHistory ops) selection :=
  ⟨linked_of_reachable ⟨ops, rfl⟩,
    SaveFile.saves_of_layout (layout_invariant.ofHistory ops) selection,
    Ddl.defines_of_reachable ⟨ops, rfl⟩ selection⟩

end Schemata
