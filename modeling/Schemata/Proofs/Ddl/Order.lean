import Schemata.Proofs.Ddl.Definition
import Schemata.Proofs.Format.Completeness

/-!
# The order of creation

A script defines the selected tables, each as often as it was selected. Those that hold fewer
references come first, and those that hold as many stay as they were selected. So where no table
that is referenced holds a reference itself, it is created before any table that references it.
-/
namespace Schemata.Ddl
open Schema
variable {s : Schema} {selection : List TableId} {id : TableId} {t : Table}

/-- How many references the table with an id holds. -/
def referenceCount (s : Schema) (id : TableId) : Nat := (s.tableAt id).foreignKeyCount

theorem creationOrder_eq (s : Schema) (selection : List TableId) : creationOrder s selection =
    selection.mergeSort fun a b => referenceCount s a ≤ referenceCount s b := by
  have hcount (id : TableId) : ((s.table? id).map (·.foreignKeyCount)).getD 0 =
      referenceCount s id := by
    unfold referenceCount tableAt
    cases s.table? id <;> rfl
  simp only [creationOrder, hcount]

theorem creationOrder_eq_self
    (h : selection.Pairwise fun a b => referenceCount s a ≤ referenceCount s b) :
    creationOrder s selection = selection := by
  rw [creationOrder_eq]
  exact List.mergeSort_of_pairwise (h.imp decide_eq_true)

/-! ### References -/

/-- A reference in the definition of a table is one that a column of the table holds. -/
theorem exists_reference_of_mem (hs : Reachable s) {k : ForeignKey}
    (hk : k ∈ (definition s id).foreignKeys) :
    ∃ f a g b u, s.field? f = some a ∧ a.table = id ∧ a.foreign = some g ∧ s.field? g = some b ∧
      s.table? b.table = some u ∧ u.name = k.table := by
  obtain ⟨⟨p, number⟩, hp, rfl⟩ := List.mem_map.1 hk
  obtain ⟨a, b, u, ha, hat, hag, hb, hu⟩ := exists_of_mem_references hs
    (List.fst_mem_of_mem_zipIdx hp)
  refine ⟨p.1, a, p.2, b, u, ha, hat, hag, hb, hu, ?_⟩
  simp only [foreignKeyOf, fieldAt_eq hb, tableAt_eq hu]

end Schemata.Ddl
