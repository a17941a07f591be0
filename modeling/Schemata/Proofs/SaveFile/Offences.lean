import Schemata.Proofs.Faults
import Schemata.Proofs.SaveFile.Integrity

/-!
# What keeps a selection from being written

Numbering a selection meets its tables in order, and in each table first the name and then the
columns. Whatever the selection is, with unknown tables and with repetitions, it is refused with the
first offence on this way, and if there is none, just the selected tables and their columns have
numbers.
-/
namespace Schemata.SaveFile
open Schema Text
variable {s : Schema} {selection : List TableId} {n : Numbers} {id : TableId} {f : FieldId}

/-- The name of a table must come back from the end of a line. -/
def nameOffences (name : String) : List BuildError :=
  faultIf (name = "" ∨ trim name.toList ≠ name.toList ∨ ¬IsLine name.toList)
    (.unrepresentableName name)

/-- The name of a field must come back from between two delimiters and its default from the end of
a line. -/
def fieldOffences (a : Field) : List BuildError :=
  faultIf (a.name = "" ∨ delimiter ∈ a.name.toList ∨ ¬IsLine a.name.toList)
      (.unrepresentableName a.name) ++
    faultIf (¬IsLine a.default.toList) (.unrepresentableDefault a.name)

def tableOffences (s : Schema) (id : TableId) : List BuildError :=
  match s.table? id with
  | none => [.unknownTable id]
  | some t => nameOffences t.name ++ t.columns.flatMap fun f => fieldOffences (s.fieldAt f)

/-- All offences, in the order of the selection and of the columns. -/
def offences (s : Schema) (selection : List TableId) : List BuildError :=
  selection.flatMap (tableOffences s)

theorem judged_checkTableName (name : String) :
    Judged (nameOffences name) (fun _ => True) (checkTableName name) := by
  apply Judged.ite_ok
  · simp [← hasLineBreak_eq_false, or_assoc]
  · exact fun _ => trivial

theorem judged_checkField (a : Field) :
    Judged (fieldOffences a) (fun _ => True) (checkField a) := by
  apply Judged.ite_error
  · simp [← hasLineBreak_eq_false, or_assoc]
  · intro _
    apply Judged.ite_ok
    · simp [← hasLineBreak_eq_false]
    · exact fun _ => trivial

/-- No unknown field is among the offences of tables whose columns are there. -/
theorem danglingField_not_mem_offences : .danglingField f ∉ offences s selection := by
  intro h
  obtain ⟨id, -, h⟩ := List.mem_flatMap.1 h
  unfold tableOffences nameOffences fieldOffences faultIf at h
  cases ht : s.table? id with
  | none => simp [ht] at h
  | some t =>
    simp only [ht, List.mem_append, List.mem_flatMap] at h
    rcases h with h | ⟨g, -, h | h⟩ <;> split at h <;> simp at h

/-! ### Numbers -/

/-- Just these tables and fields have numbers. -/
structure Covers (ids : List TableId) (fs : List FieldId) (n : Numbers) : Prop where
  tables : ∀ id, (∃ m, n.table? id = some m) ↔ id ∈ ids
  fields : ∀ f, (∃ m, n.field? f = some m) ↔ f ∈ fs

theorem exists_lookup_cons {κ : Type} [DecidableEq κ] {l : List (κ × Nat)} {ks : List κ}
    (h : ∀ k, (∃ m, l.lookup k = some m) ↔ k ∈ ks) (k : κ) (next : Nat) (k' : κ) :
    (∃ m, ((k, next) :: l).lookup k' = some m) ↔ k' ∈ ks ++ [k] := by
  rw [List.mem_append, List.mem_singleton, ← h, List.lookup_cons]
  by_cases hk : k' = k
  · simp [hk]
  · simp [hk, beq_eq_false_iff_ne.2 hk]

theorem covers_nil : Covers [] [] {} := ⟨by simp [Numbers.table?], by simp [Numbers.field?]⟩

theorem judged_addField {ids : List TableId} {fs : List FieldId} (hf : ∃ a, s.field? f = some a)
    (hn : Covers ids fs n) : Judged (fieldOffences (s.fieldAt f)) (Covers ids (fs ++ [f]))
      (Numbers.addField s n f) := by
  obtain ⟨a, ha⟩ := hf
  rw [fieldAt_eq ha, ← List.append_nil (fieldOffences a)]
  simp only [Numbers.addField, writtenField, ha]
  apply (judged_checkField a).bind
  exact fun _ _ => .accepted ⟨hn.tables, exists_lookup_cons hn.fields f n.next⟩

section Layout
variable (hl : Layout s)
include hl

theorem judged_addTable {ids : List TableId} (hn : Covers ids (s.selected ids) n)
    (id : TableId) : Judged (tableOffences s id)
      (fun n => Covers (ids ++ [id]) (s.selected (ids ++ [id])) n) (Numbers.addTable s n id) := by
  unfold tableOffences Numbers.addTable writtenTable
  cases ht : s.table? id with
  | none => exact .refused _ []
  | some t =>
    apply (judged_checkTableName t.name).bind
    intro _ _
    rw [← faultsAlong_const (fun f => fieldOffences (s.fieldAt f)) []]
    have hselected : s.selected (ids ++ [id]) = s.selected ids ++ t.columns := by
      simp [selected, tableAt_eq ht]
    rw [hselected]
    apply Judged.foldlM (P := fun done => Covers (ids ++ [id]) (s.selected ids ++ done))
    · rw [List.append_nil]
      exact ⟨exists_lookup_cons hn.tables id n.next, hn.fields⟩
    · intro done f hf n hn
      obtain ⟨a, ha, -⟩ := (hl.mem_columns ht f).1 hf
      rw [← List.append_assoc]
      exact judged_addField ⟨a, ha⟩ hn

theorem judged_ofSelection (selection : List TableId) : Judged (offences s selection)
    (Covers selection (s.selected selection)) (Numbers.ofSelection s selection) := by
  rw [offences, ← faultsAlong_const (tableOffences s) []]
  apply Judged.foldlM (P := fun done => Covers done (s.selected done)) covers_nil
  exact fun done id _ n hn => judged_addTable hl hn id

end Layout

end Schemata.SaveFile
