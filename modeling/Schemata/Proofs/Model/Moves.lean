import Schemata.Proofs.Lists
import Schemata.Proofs.Model.Layout

/-!
# Moving columns

A move exchanges a column with one beside it. Where there is none, it answers false and changes
nothing. So the opposite move undoes a move, moves in one direction bring a column to any place
while the others keep their order, and whatever is moved, nothing changes but the order of columns.
-/
namespace Schemata

/-! ### Exchanged columns -/

theorem getElem?_swapNext {α : Type} {p : Nat} {l : List α} (h : p + 1 < l.length) :
    (swapNext p l)[p]? = l[p + 1]? ∧ (swapNext p l)[p + 1]? = l[p]? := by
  fun_induction swapNext p l with
  | case1 a b rest => exact ⟨rfl, rfl⟩
  | case2 p a rest ih => exact ih (Nat.lt_of_succ_lt_succ h)
  | case3 p l hzero hsucc =>
    rcases l with _ | ⟨a, _ | ⟨b, rest⟩⟩
    · cases h
    · simp at h
    · cases p with
      | zero => exact absurd rfl (hzero a b rest rfl)
      | succ p => exact absurd rfl (hsucc p a (b :: rest) rfl)

/-- All but one of two exchanged elements stand as before. -/
theorem erase_swapNext {α : Type} [DecidableEq α] {p : Nat} {l : List α} (hl : l.Nodup) {a : α}
    (ha : l[p]? = some a ∨ l[p + 1]? = some a) : (swapNext p l).erase a = l.erase a := by
  fun_induction swapNext p l with
  | case1 b c rest =>
    have hne : b ≠ c := fun h => (List.nodup_cons.1 hl).1 (h ▸ List.mem_cons_self)
    obtain rfl | rfl : b = a ∨ c = a := by simpa using ha
    · simp [hne.symm]
    · simp [hne]
  | case2 p b rest ih =>
    obtain ⟨hb, hrest⟩ := List.nodup_cons.1 hl
    have ha' : rest[p]? = some a ∨ rest[p + 1]? = some a := by simpa using ha
    have hmem : a ∈ rest := ha'.elim List.mem_of_getElem? List.mem_of_getElem?
    have hne : b ≠ a := fun h => hb (h ▸ hmem)
    rw [List.erase_cons_tail (by simpa using hne), List.erase_cons_tail (by simpa using hne),
      ih hrest ha']
  | case3 => rfl

inductive Direction
  | up | down
deriving DecidableEq, Repr

namespace Direction

def opposite : Direction → Direction
  | up => down
  | down => up

/-- The place that a move leads to from one of `n` places. -/
def next? (n : Nat) : Direction → Nat → Option Nat
  | up, 0 => none
  | up, i + 1 => some i
  | down, i => if i + 1 < n then some (i + 1) else none

/-- So many moves lead from place `i` to place `j` of `n`. -/
def Leads (n i moves j : Nat) : Direction → Prop
  | up => i = j + moves
  | down => j = i + moves ∧ j < n

variable {d : Direction} {n i i' j moves : Nat}

theorem next?_opposite (hi : i < n) (h : d.next? n i = some i') :
    d.opposite.next? n i' = some i := by
  cases d with
  | up =>
    cases i with
    | zero => cases h
    | succ i =>
      cases h
      exact if_pos hi
  | down =>
    obtain ⟨-, rfl⟩ : i + 1 < n ∧ i + 1 = i' := by simpa [next?] using h
    rfl

theorem Leads.step (hi : i < n) (h : d.Leads n i (moves + 1) j) :
    ∃ i', d.next? n i = some i' ∧ d.Leads n i' moves j := by
  cases d with
  | up =>
    obtain rfl : i = j + moves + 1 := h
    exact ⟨j + moves, rfl, rfl⟩
  | down =>
    obtain ⟨rfl, hj⟩ : j = i + (moves + 1) ∧ j < n := h
    refine ⟨i + 1, if_pos (by omega), ?_, hj⟩
    omega

/-- What exchanging a column with the one that stands where it moves does to the columns. -/
theorem next?_swapNext {α : Type} [DecidableEq α] {l : List α} (hl : l.Nodup) {a : α}
    (ha : l[i]? = some a) (h : d.next? l.length i = some i') :
    (swapNext (min i i') l)[i']? = some a ∧ (swapNext (min i i') l).erase a = l.erase a := by
  have hi := (List.getElem?_eq_some_iff.1 ha).1
  cases d with
  | up =>
    cases i with
    | zero => cases h
    | succ i =>
      obtain rfl : i = i' := Option.some.inj h
      rw [Nat.min_eq_right (Nat.le_succ i)]
      exact ⟨(getElem?_swapNext hi).1.trans ha, erase_swapNext hl (.inr ha)⟩
  | down =>
    obtain ⟨hlt, rfl⟩ : i + 1 < l.length ∧ i + 1 = i' := by simpa [next?] using h
    rw [Nat.min_eq_left (Nat.le_succ i)]
    exact ⟨(getElem?_swapNext hlt).2.trans ha, erase_swapNext hl (.inl ha)⟩

end Direction

namespace Schema
variable {s s' : Schema} {id : TableId} {t : Table} {f : FieldId} {i : Nat} {d : Direction}

/-- With the columns of one table put in another order. -/
def withColumns (s : Schema) (id : TableId) (columns : List FieldId) : Schema :=
  s.modifyTable id fun t => { t with columns }

theorem table?_withColumns (ht : s.table? id = some t) (columns : List FieldId) :
    (s.withColumns id columns).table? id = some { t with columns } := by
  rw [withColumns, table?_modifyTable, if_pos rfl, ht, Option.map_some]

theorem withColumns_withColumns (s : Schema) (id : TableId) (columns columns' : List FieldId) :
    (s.withColumns id columns).withColumns id columns' = s.withColumns id columns' :=
  modifyTable_modifyTable s id _ _

theorem withColumns_self (ht : s.table? id = some t) : s.withColumns id t.columns = s := by
  have hsame : s.withColumns id t.columns = s.modifyTable id fun t => t := by
    apply modifyTable_congr
    intro t' ht'
    cases ht.symm.trans ht'
    rfl
  exact hsame.trans (modifyTable_id s id)

theorem withColumns_swapNext (ht : s.table? id = some t) (p : Nat) :
    s.withColumns id (swapNext p t.columns) =
      s.modifyTable id fun t => { t with columns := swapNext p t.columns } := by
  apply modifyTable_congr
  intro t' ht'
  cases ht.symm.trans ht'
  rfl

theorem swapColumns_eq (ht : s.table? id = some t) (p : Nat) : s.swapColumns id t p =
    if p + 1 < t.columns.length then
      ⟨s.withColumns id (swapNext p t.columns), true, some (.tableChanged id)⟩
    else ⟨s, false, none⟩ := by
  rw [swapColumns, withColumns_swapNext ht]

/-! ### Schemata that differ in the order of columns -/

/-- The same fields, and the same tables but for the order of their columns. -/
structure Reordered (s s' : Schema) : Prop where
  fields : s'.fields = s.fields
  tables : List.Forall₂ (fun t t' => ∃ columns, columns.Perm t.columns ∧ t' = { t with columns })
    s.tables s'.tables

theorem reordered_refl (s : Schema) : Reordered s s :=
  ⟨rfl, List.forall₂_same.2 fun t _ => ⟨t.columns, .refl _, rfl⟩⟩

theorem Reordered.swap (h : Reordered s s') (id : TableId) (p : Nat) :
    Reordered s (s'.modifyTable id fun t => { t with columns := swapNext p t.columns }) := by
  refine ⟨h.fields, forall₂_modify ?_ h.tables id.index⟩
  rintro t t' ⟨columns, hperm, rfl⟩
  exact ⟨swapNext p columns, (swapNext_perm p columns).trans hperm, rfl⟩

namespace Reordered
variable (h : Reordered s s')
include h

theorem field?_eq : s'.field? = s.field? := by
  unfold field?
  rw [h.fields]

theorem table?_eq (id : TableId) : (s'.table? id = none ∧ s.table? id = none) ∨
    ∃ t columns, s.table? id = some t ∧ columns.Perm t.columns ∧
      s'.table? id = some { t with columns } := by
  cases ht : s.table? id with
  | some t =>
    obtain ⟨t', ht', columns, hperm, rfl⟩ := getElem?_of_forall₂ h.tables ht
    exact .inr ⟨t, columns, rfl, hperm, ht'⟩
  | none =>
    have hlength := List.getElem?_eq_none_iff.1 ht
    rw [h.tables.length_eq] at hlength
    exact .inl ⟨List.getElem?_eq_none hlength, rfl⟩

theorem tableNames : s'.tables.map (·.name) = s.tables.map (·.name) := by
  rw [← List.forall₂_eq_eq_eq, List.forall₂_map_left_iff, List.forall₂_map_right_iff]
  refine h.tables.flip.imp ?_
  rintro t' t ⟨columns, -, rfl⟩
  rfl

theorem sameLayout : SameLayout s s' where
  names := h.tableNames
  columns {id t'} ht' := by
    obtain ⟨hnone, -⟩ | ⟨t, columns, ht, hperm, hsome⟩ := h.table?_eq id
    · cases hnone.symm.trans ht'
    · cases hsome.symm.trans ht'
      exact ⟨t, ht, hperm⟩
  labels := by rw [h.fields]

end Reordered

theorem Layout.exchanged (hl : Layout s) (ht : s.table? id = some t) (p : Nat) :
    Layout (s.withColumns id (swapNext p t.columns)) := by
  rw [withColumns_swapNext ht]
  exact hl.of_same ((reordered_refl s).swap id p).sameLayout

/-! ### Single moves -/

def move (s : Schema) (f : FieldId) : Direction → Except SchemaError (Change Bool)
  | .up => s.moveUp f
  | .down => s.moveDown f

theorem position?_eq (ht : t.columns.Nodup) (hi : t.columns[i]? = some f) :
    t.position? f = some i := by
  obtain ⟨hlt, rfl⟩ := List.getElem?_eq_some_iff.1 hi
  refine List.findIdx?_eq_some_iff_getElem.2 ⟨hlt, beq_self_eq_true _, fun j hj => ?_⟩
  rw [beq_iff_eq, ht.getElem_inj_iff]
  exact Nat.ne_of_lt hj

/-- What a move of a field does from place `i` of its table. -/
def moved (s : Schema) (id : TableId) (t : Table) (i : Nat) : Option Nat → Change Bool
  | none => ⟨s, false, none⟩
  | some i' => ⟨s.withColumns id (swapNext (min i i') t.columns), true, some (.tableChanged id)⟩

theorem move_eq_ok (hl : Layout s) (ht : s.table? id = some t) (hi : t.columns[i]? = some f)
    (d : Direction) : s.move f d = .ok (s.moved id t i (d.next? t.columns.length i)) := by
  obtain ⟨a, ha, rfl⟩ := (hl.mem_columns ht f).1 (List.mem_of_getElem? hi)
  have hposition := position?_eq (hl.nodup_columns ht) hi
  cases d with
  | up =>
    refine moveUp_eq_ok_iff.2 ⟨a, t, ha, ht, ?_⟩
    rw [hposition]
    cases i with
    | zero => rfl
    | succ i =>
      have hlt := (List.getElem?_eq_some_iff.1 hi).1
      simp only [swapColumns_eq ht, Direction.next?, moved, if_pos hlt,
        Nat.min_eq_right (Nat.le_succ i)]
  | down =>
    refine moveDown_eq_ok_iff.2 ⟨a, t, ha, ht, ?_⟩
    rw [hposition]
    simp only [swapColumns_eq ht, Direction.next?]
    split_ifs with hnext
    · rw [moved, Nat.min_eq_left (Nat.le_succ i)]
    · rfl

/-- A move that is made exchanges two columns, and the opposite one exchanges them again. -/
theorem move_opposite (hl : Layout s) (ht : s.table? id = some t) (hi : t.columns[i]? = some f)
    {i' : Nat} (hnext : d.next? t.columns.length i = some i') :
    (s.withColumns id (swapNext (min i i') t.columns)).move f d.opposite =
      .ok ⟨s, true, some (.tableChanged id)⟩ := by
  have hperm := swapNext_perm (min i i') t.columns
  have hplace := (Direction.next?_swapNext (hl.nodup_columns ht) hi hnext).1
  rw [move_eq_ok (hl.exchanged ht _) (table?_withColumns ht _) hplace, hperm.length_eq,
    Direction.next?_opposite (List.getElem?_eq_some_iff.1 hi).1 hnext, moved,
    withColumns_withColumns, Nat.min_comm i' i, swapNext_swapNext, withColumns_self ht]

/-! ### Rows of moves -/

/-- So many moves of a field, one after the other, each of which is made. -/
inductive Moved (f : FieldId) (d : Direction) : Nat → Schema → Schema → Prop
  | none (s : Schema) : Moved f d 0 s s
  | more {s s' : Schema} {moves : Nat} {c : Change Bool} (h : s.move f d = .ok c)
      (hmoved : c.reply = true) (hmore : Moved f d moves c.schema s') : Moved f d (moves + 1) s s'

/-- Moves that stay inside of the table are all made, and only the moved column leaves its place
among the others. -/
theorem exists_moved (hl : Layout s) (ht : s.table? id = some t) (hi : t.columns[i]? = some f)
    {moves j : Nat} (h : d.Leads t.columns.length i moves j) :
    ∃ columns, Moved f d moves s (s.withColumns id columns) ∧ columns[j]? = some f ∧
      columns.erase f = t.columns.erase f := by
  induction moves generalizing s t i with
  | zero =>
    obtain rfl : i = j := by
      cases d with
      | up => exact h
      | down => exact h.1.symm
    refine ⟨t.columns, ?_, hi, rfl⟩
    rw [withColumns_self ht]
    exact .none s
  | succ moves ih =>
    obtain ⟨i', hnext, hleads⟩ := h.step (List.getElem?_eq_some_iff.1 hi).1
    obtain ⟨hplace, herase⟩ := Direction.next?_swapNext (hl.nodup_columns ht) hi hnext
    rw [← (swapNext_perm (min i i') t.columns).length_eq] at hleads
    obtain ⟨columns, hmoved, hj, hothers⟩ :=
      ih (hl.exchanged ht _) (table?_withColumns ht _) hplace hleads
    refine ⟨columns, .more (move_eq_ok hl ht hi d) ?_ ?_, hj, hothers.trans herase⟩
    · rw [hnext, moved]
    · rw [hnext, moved]
      rwa [withColumns_withColumns] at hmoved

/-- The schema once a move has been asked for; a refusal leaves it alone. -/
def afterMove (s : Schema) (m : FieldId × Direction) : Schema :=
  match s.move m.1 m.2 with
  | .ok c => c.schema
  | .error _ => s

theorem Reordered.swapColumns (h : Reordered s s') (id : TableId) (t : Table) (p : Nat) :
    Reordered s (s'.swapColumns id t p).schema := by
  unfold Schema.swapColumns
  split
  · exact h.swap id p
  · exact h

theorem Reordered.afterMove (h : Reordered s s') (m : FieldId × Direction) :
    Reordered s (s'.afterMove m) := by
  obtain ⟨f, d⟩ := m
  unfold Schema.afterMove
  cases hmove : s'.move f d with
  | error e => exact h
  | ok c =>
    cases d with
    | up =>
      obtain ⟨a, t, -, -, rfl⟩ := moveUp_eq_ok_iff.1 hmove
      rcases t.position? f with _ | _ | p
      · exact h
      · exact h
      · exact h.swapColumns a.table t p
    | down =>
      obtain ⟨a, t, -, -, rfl⟩ := moveDown_eq_ok_iff.1 hmove
      cases t.position? f with
      | none => exact h
      | some p => exact h.swapColumns a.table t p

theorem Reordered.foldl_afterMove (h : Reordered s s') (moves : List (FieldId × Direction)) :
    Reordered s (moves.foldl Schema.afterMove s') := by
  induction moves generalizing s' with
  | nil => exact h
  | cons m moves ih => exact ih (h.afterMove m)

/-! ### What the order of columns decides -/

/-- Two schemata with the same tables and fields, of which just the columns may be in another order,
and with them the columns of a primary key. -/
structure SameButOrder (s s' : Schema) : Prop extends Reordered s s' where
  tableNamed : ∀ name, s'.tableNamed? name = s.tableNamed? name
  fieldNamed : ∀ id name, s'.fieldNamed? id name = s.fieldNamed? id name
  bindings : ∀ id f, (s'.table? id).bind (·.boundTo? f) = (s.table? id).bind (·.boundTo? f)
  primaryKey : ∀ id, (s'.primaryKey id).Perm (s.primaryKey id)
  /-- The key is in the order of the columns as they are now. -/
  keyOrder : ∀ id t, s'.table? id = some t →
    s'.primaryKey id = t.columns.filter (· ∈ s.primaryKey id)

theorem Reordered.sameButOrder (h : Reordered s s') (hl : Layout s) : SameButOrder s s' where
  toReordered := h
  tableNamed name := by
    have hplace := congrArg (List.findIdx? (· == name)) h.tableNames
    rw [List.findIdx?_map, List.findIdx?_map] at hplace
    exact congrArg (Option.map TableId.mk) hplace
  fieldNamed id name := by
    ext f
    rw [(hl.of_same h.sameLayout).fieldNamed?_eq_some_iff, hl.fieldNamed?_eq_some_iff, h.field?_eq]
  bindings id f := by
    obtain ⟨hnone', hnone⟩ | ⟨t, columns, ht, -, ht'⟩ := h.table?_eq id
    · rw [hnone', hnone]
    · rw [ht', ht]
      rfl
  primaryKey id := by
    unfold Schema.primaryKey
    rw [h.field?_eq]
    obtain ⟨hnone', hnone⟩ | ⟨t, columns, ht, hperm, ht'⟩ := h.table?_eq id
    · rw [hnone', hnone]
    · rw [ht', ht]
      exact hperm.filter _
  keyOrder id t' ht' := by
    obtain ⟨hnone, -⟩ | ⟨t, columns, ht, hperm, hsome⟩ := h.table?_eq id
    · cases hnone.symm.trans ht'
    · cases hsome.symm.trans ht'
      unfold Schema.primaryKey
      rw [h.field?_eq, ht', ht]
      apply List.filter_congr
      intro f hf
      simp [hperm.mem_iff.1 hf]

/-- How far a field can be moved that stands at place `i` of a table. -/
structure Movable (s : Schema) (id : TableId) (t : Table) (f : FieldId) (i : Nat) : Prop where
  up : ∃ c, s.moveUp f = .ok c ∧ (c.reply = true ↔ 0 < i)
  down : ∃ c, s.moveDown f = .ok c ∧ (c.reply = true ↔ i + 1 < t.columns.length)
  undone : ∀ d c, s.move f d = .ok c → c.reply = true →
    ∃ c', c.schema.move f d.opposite = .ok c' ∧ c'.reply = true ∧ c'.schema = s
  /-- To any place before its own. -/
  upTo : ∀ j ≤ i, ∃ columns, Moved f .up (i - j) s (s.withColumns id columns) ∧
    columns[j]? = some f ∧ columns.erase f = t.columns.erase f
  downTo : ∀ j, i ≤ j → j < t.columns.length →
    ∃ columns, Moved f .down (j - i) s (s.withColumns id columns) ∧
      columns[j]? = some f ∧ columns.erase f = t.columns.erase f

theorem movable (hl : Layout s) (ht : s.table? id = some t) (hi : t.columns[i]? = some f) :
    Movable s id t f i where
  up := by
    refine ⟨_, move_eq_ok hl ht hi .up, ?_⟩
    cases i <;> simp [Direction.next?, moved]
  down := by
    refine ⟨_, move_eq_ok hl ht hi .down, ?_⟩
    rw [Direction.next?]
    split_ifs with hnext <;> simp [moved, hnext]
  undone d c hc hmoved := by
    rw [move_eq_ok hl ht hi] at hc
    cases hc
    cases hnext : d.next? t.columns.length i with
    | none =>
      rw [hnext] at hmoved
      cases hmoved
    | some i' => exact ⟨_, move_opposite hl ht hi hnext, rfl, rfl⟩
  upTo j hj := by
    apply exists_moved hl ht hi
    exact (Nat.add_sub_of_le hj).symm
  downTo j hij hj := by
    apply exists_moved hl ht hi
    exact ⟨(Nat.add_sub_of_le hij).symm, hj⟩

/-- After any history: each field can be moved to all places of its table and back, and no moves
change anything but the order of columns. -/
theorem moves_reorder (ops : List Operation) :
    (∀ f a, (ofHistory ops).field? f = some a →
      ∃ t i, (ofHistory ops).table? a.table = some t ∧
        (∀ j, t.columns[j]? = some f ↔ j = i) ∧ Movable (ofHistory ops) a.table t f i) ∧
    ∀ moves : List (FieldId × Direction),
      SameButOrder (ofHistory ops) (moves.foldl afterMove (ofHistory ops)) := by
  have hl := layout_invariant.ofHistory ops
  generalize ofHistory ops = s at hl
  constructor
  · intro f a ha
    obtain ⟨t, ht⟩ := hl.hasTable ha
    obtain ⟨i, hi⟩ := List.mem_iff_getElem?.1 ((hl.mem_columns ht f).2 ⟨a, ha, rfl⟩)
    refine ⟨t, i, ht, fun j => ?_, movable hl ht hi⟩
    constructor
    · intro hj
      have hlt := (List.getElem?_eq_some_iff.1 hj).1
      exact (List.getElem?_inj hlt (hl.nodup_columns ht)).1 (hj.trans hi.symm)
    · rintro rfl
      exact hi
  · exact fun moves => ((reordered_refl s).foldl_afterMove moves).sameButOrder hl

/-- The last column goes up and the first one down; the second one is first by then, and there is no
column with the number 7. -/
example : (([(⟨2⟩, .up), (⟨0⟩, .down), (⟨2⟩, .up), (⟨7⟩, .down)].foldl afterMove
    (ofHistory [.addTable "Author", .addField ⟨0⟩ "a", .addField ⟨0⟩ "b", .addField ⟨0⟩ "c"])).table?
      ⟨0⟩).map (·.columns) = some [⟨2⟩, ⟨0⟩, ⟨1⟩] := by rfl

end Schema
end Schemata
