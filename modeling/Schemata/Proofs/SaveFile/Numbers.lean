import Schemata.Proofs.Model.Selection
import Schemata.SaveFile.Numbering

/-!
# The numbers of a save file

Tables and fields are numbered through in one sequence, each table right before its columns. Where
no table is selected twice, the number of each is its place in this sequence, counted from one.
-/
namespace Schemata.SaveFile
open Schema
variable {s : Schema} {selection : List TableId} {n : Numbers}

/-- What gets a number. -/
inductive Cell
  | table (id : TableId)
  | field (id : FieldId)
deriving DecidableEq

def cells (s : Schema) (selection : List TableId) : List Cell :=
  selection.flatMap fun id => .table id :: (s.tableAt id).columns.map .field

def numberAt (cs : List Cell) (c : Cell) : Nat := cs.idxOf c + 1

def number? (cs : List Cell) (c : Cell) : Option Nat :=
  if c ∈ cs then some (numberAt cs c) else none

theorem mem_cells_table {id : TableId} : .table id ∈ cells s selection ↔ id ∈ selection := by
  simp [cells]

theorem mem_cells_field {f : FieldId} :
    .field f ∈ cells s selection ↔ f ∈ s.selected selection := by
  simp [cells, selected]

theorem length_cells (s : Schema) (selection : List TableId) :
    (cells s selection).length = selection.length + (s.selected selection).length := by
  induction selection with
  | nil => rfl
  | cons id selection ih =>
    simp only [cells, selected, List.flatMap_cons, List.length_append, List.length_cons,
      List.length_map] at ih ⊢
    omega

theorem nodup_cells (hl : Layout s) (hs : selection.Nodup) : (cells s selection).Nodup := by
  rw [cells, List.nodup_flatMap]
  constructor
  · intro id _
    rw [List.nodup_cons]
    exact ⟨by simp, (hl.nodup_columnsAt id).map fun _ _ => Cell.field.inj⟩
  · apply hs.imp
    intro id id' hne c hc hc'
    cases c with
    | table id'' =>
      simp only [List.mem_cons, Cell.table.injEq, List.mem_map, reduceCtorEq, and_false,
        exists_false, or_false] at hc hc'
      exact hne (hc.symm.trans hc')
    | field f =>
      simp only [List.mem_cons, reduceCtorEq, List.mem_map, Cell.field.injEq, exists_eq_right,
        false_or, hl.mem_columnsAt] at hc hc'
      obtain ⟨a, ha, rfl⟩ := hc
      obtain ⟨b, hb, rfl⟩ := hc'
      cases ha.symm.trans hb
      exact hne rfl

theorem numberAt_inj {cs : List Cell} {c c' : Cell} (hc : c ∈ cs)
    (h : numberAt cs c = numberAt cs c') : c = c' :=
  (List.idxOf_inj hc).1 (Nat.succ.inj h)

theorem number?_push {cs : List Cell} {c : Cell} (hc : c ∉ cs) (c' : Cell) :
    number? (cs ++ [c]) c' = if c' = c then some (cs.length + 1) else number? cs c' := by
  unfold number? numberAt
  rw [List.idxOf_append]
  by_cases h : c' = c
  · simp [h, hc]
  · by_cases hm : c' ∈ cs <;> simp [h, hm]

/-- The numbers given so far are the places in a sequence. -/
structure Numbered (cs : List Cell) (n : Numbers) : Prop where
  tables : ∀ id, n.table? id = number? cs (.table id)
  fields : ∀ f, n.field? f = number? cs (.field f)
  next : n.next = cs.length + 1

theorem numbered_nil : Numbered [] {} := ⟨fun _ => rfl, fun _ => rfl, rfl⟩

theorem Numbered.pushTable {cs : List Cell} (h : Numbered cs n) {id : TableId}
    (hnew : .table id ∉ cs) : Numbered (cs ++ [.table id])
      { n with tables := (id, n.next) :: n.tables, next := n.next + 1 } where
  tables id' := by
    rw [number?_push hnew, ← h.tables, ← h.next]
    by_cases hid : id' = id
    · simp [Numbers.table?, hid]
    · simp [Numbers.table?, List.lookup_cons, hid, beq_eq_false_iff_ne.2 hid]
  fields f := by
    rw [number?_push hnew, if_neg Cell.noConfusion, ← h.fields]
    rfl
  next := by simp [h.next]

theorem Numbered.pushField {cs : List Cell} (h : Numbered cs n) {f : FieldId}
    (hnew : .field f ∉ cs) : Numbered (cs ++ [.field f])
      { n with fields := (f, n.next) :: n.fields, next := n.next + 1 } where
  tables id := by
    rw [number?_push hnew, if_neg Cell.noConfusion, ← h.tables]
    rfl
  fields f' := by
    rw [number?_push hnew, ← h.fields, ← h.next]
    by_cases hf : f' = f
    · simp [Numbers.field?, hf]
    · simp [Numbers.field?, List.lookup_cons, hf, beq_eq_false_iff_ne.2 hf]
  next := by simp [h.next]

/-! ### A selection -/

/-- All that is selected is there and survives being written. -/
structure Representable (s : Schema) (selection : List TableId) : Prop where
  tables : ∀ id ∈ selection, ∃ t, s.table? id = some t ∧ checkTableName t.name = .ok ()
  fields : ∀ f ∈ s.selected selection, ∃ a, s.field? f = some a ∧ checkField a = .ok ()

theorem foldlM_addField {cs : List Cell} {fs : List FieldId} {n' : Numbers}
    (hn : Numbered cs n) (hcs : (cs ++ fs.map Cell.field).Nodup)
    (h : fs.foldlM (Numbers.addField s) n = .ok n') :
    Numbered (cs ++ fs.map .field) n' ∧
      ∀ f ∈ fs, ∃ a, s.field? f = some a ∧ checkField a = .ok () := by
  induction fs generalizing cs n with
  | nil =>
    cases h
    rw [List.map_nil, List.append_nil]
    exact ⟨hn, by simp⟩
  | cons f fs ih =>
    have hnew : .field f ∉ cs := fun hf =>
      (List.nodup_append.1 hcs).2.2 _ hf _ List.mem_cons_self rfl
    rw [List.map_cons, List.append_cons] at hcs ⊢
    simp only [List.foldlM_cons, Numbers.addField, bind_eq_ok, writtenField_eq_ok,
      pure_eq_ok] at h
    obtain ⟨_, ⟨a, ha, _, hcheck, rfl⟩, h⟩ := h
    obtain ⟨hn', hchecks⟩ := ih (hn.pushField hnew) hcs h
    exact ⟨hn', List.forall_mem_cons.2 ⟨⟨a, ha, hcheck⟩, hchecks⟩⟩

theorem foldlM_addTable_numbered {cs : List Cell} {n' : Numbers} (hn : Numbered cs n)
    (hcs : (cs ++ cells s selection).Nodup)
    (h : selection.foldlM (Numbers.addTable s) n = .ok n') :
    Numbered (cs ++ cells s selection) n' ∧ Representable s selection := by
  induction selection generalizing cs n with
  | nil =>
    cases h
    rw [show cells s [] = [] from rfl, List.append_nil]
    exact ⟨hn, by simp, by simp [selected]⟩
  | cons id selection ih =>
    have hcells : cells s (id :: selection) =
        .table id :: ((s.tableAt id).columns.map .field ++ cells s selection) := rfl
    have hnew : .table id ∉ cs := fun hid =>
      (List.nodup_append.1 hcs).2.2 _ hid _ (hcells ▸ List.mem_cons_self) rfl
    rw [hcells, List.append_cons, ← List.append_assoc] at hcs ⊢
    simp only [List.foldlM_cons, Numbers.addTable, bind_eq_ok, writtenTable_eq_ok] at h
    obtain ⟨n₁, ⟨t, ht, _, hcheck, hfields⟩, h⟩ := h
    rw [tableAt_eq ht] at hcs ⊢
    obtain ⟨hn₁, hchecks⟩ := foldlM_addField (hn.pushTable hnew)
      (List.nodup_append.1 hcs).1 hfields
    obtain ⟨hn', hrest⟩ := ih hn₁ hcs h
    refine ⟨hn', List.forall_mem_cons.2 ⟨⟨t, ht, hcheck⟩, hrest.tables⟩, ?_⟩
    rw [selected, List.flatMap_cons, tableAt_eq ht, List.forall_mem_append]
    exact ⟨hchecks, hrest.fields⟩

/-- Numbering a selection counts through its tables and fields and checks them all. -/
theorem ofSelection_numbered (hl : Layout s) (hs : selection.Nodup)
    (h : Numbers.ofSelection s selection = .ok n) :
    Numbered (cells s selection) n ∧ Representable s selection :=
  foldlM_addTable_numbered numbered_nil (nodup_cells hl hs) h

end Schemata.SaveFile
