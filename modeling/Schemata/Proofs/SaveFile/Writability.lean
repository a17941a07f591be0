import Schemata.Proofs.Endings
import Schemata.Proofs.SaveFile.Representable

/-!
# Written files can be read

What has been checked on writing is what the reader of lines relies on, and no number is beyond the
count of what has been selected. So the text of a file gives the file back, also where tables are
selected again.
-/
namespace Schemata.SaveFile
open Schema Text
variable {s : Schema} {selection : List TableId} {n n' : Numbers} {count : Nat} {id : TableId}
  {f : FieldId}

/-! ### Numbers -/

/-- So many numbers have been given, from one on. -/
structure Counted (count : Nat) (n : Numbers) : Prop where
  next : n.next = count + 1
  tables : Noted (· ≤ count) n.tables
  fields : Noted (· ≤ count) n.fields

namespace Counted

theorem pushTable (h : Counted count n) (id : TableId) : Counted (count + 1)
    { n with tables := (id, n.next) :: n.tables, next := n.next + 1 } where
  next := by rw [h.next]
  tables := (h.tables.mono fun _ => Nat.le_succ_of_le).push (Nat.le_of_eq h.next)
  fields := h.fields.mono fun _ => Nat.le_succ_of_le

theorem pushField (h : Counted count n) (f : FieldId) : Counted (count + 1)
    { n with fields := (f, n.next) :: n.fields, next := n.next + 1 } where
  next := by rw [h.next]
  tables := h.tables.mono fun _ => Nat.le_succ_of_le
  fields := (h.fields.mono fun _ => Nat.le_succ_of_le).push (Nat.le_of_eq h.next)

theorem addField (hn : Counted count n) (h : Numbers.addField s n f = .ok n') :
    Counted (count + 1) n' := by
  simp only [Numbers.addField, bind_eq_ok, pure_eq_ok] at h
  obtain ⟨_, -, _, -, rfl⟩ := h
  exact hn.pushField f

theorem addTable (hn : Counted count n) (h : Numbers.addTable s n id = .ok n') :
    Counted (count + (1 + (s.tableAt id).columns.length)) n' := by
  simp only [Numbers.addTable, bind_eq_ok, writtenTable_eq_ok] at h
  obtain ⟨t, ht, _, -, h⟩ := h
  have hrun : Ends (fun _ => True) (Counted (count + 1 + t.columns.length)) (t.columns.foldlM
      (Numbers.addField s) { n with tables := (id, n.next) :: n.tables, next := n.next + 1 }) := by
    apply Ends.foldlM (P := fun done => Counted (count + 1 + done.length)) (hn.pushTable id)
    intro done f rest _ n hn
    rw [List.length_append, ← Nat.add_assoc]
    exact .of_given fun n' h => hn.addField h
  rw [tableAt_eq ht, ← Nat.add_assoc]
  exact hrun.given h

/-- As many numbers are given as tables are selected and columns of them. -/
theorem ofSelection (h : Numbers.ofSelection s selection = .ok n) :
    Counted (cells s selection).length n := by
  have hrun : Ends (fun _ => True) (fun n => Counted (cells s selection).length n)
      (Numbers.ofSelection s selection) := by
    apply Ends.foldlM (P := fun done n => Counted (cells s done).length n)
    · exact ⟨rfl, noted_nil _, noted_nil _⟩
    · intro done id rest _ n hn
      have hcells : (cells s (done ++ [id])).length =
          (cells s done).length + (1 + (s.tableAt id).columns.length) := by
        simp [cells, Nat.add_comm]
      rw [hcells]
      exact .of_given fun n' h => hn.addTable h
  exact hrun.given h

end Counted

/-! ### Lines -/

section Lines
variable (hn : Counted count n) (hcount : count < wordLimit)
include hn hcount

theorem Counted.table_lt {m : Nat} (h : n.table? id = some m) : m < wordLimit :=
  Nat.lt_of_le_of_lt (hn.tables id m h) hcount

theorem Counted.field_lt {m : Nat} (h : n.field? f = some m) : m < wordLimit :=
  Nat.lt_of_le_of_lt (hn.fields f m h) hcount

theorem writableBlock_of_tableBlock (hr : Representable s selection) (hid : id ∈ selection)
    {b : Block} (h : tableBlock s n id = .ok b) : WritableBlock b := by
  simp only [tableBlock, bind_eq_ok, writtenTable_eq_ok, Numbers.table_eq_ok, pure_eq_ok] at h
  obtain ⟨t, ht, as, has, m, hm, native, hnative, rfl⟩ := h
  obtain ⟨t', ht', hcheck⟩ := hr.tables id hid
  cases ht.symm.trans ht'
  obtain ⟨hnonempty, htrimmed, hline⟩ := checkTableName_eq_ok.1 hcheck
  refine ⟨hn.table_lt hcount hm, hnonempty, htrimmed, hline, ?_, ?_, ?_, ?_⟩
  · intro k hk
    obtain ⟨f, -, hf⟩ := exists_of_mem_mapM hnative k hk
    exact hn.field_lt hcount (Numbers.field_eq_ok.1 hf)
  · intro k hk
    obtain ⟨other, -, hother⟩ := List.mem_filterMap.1 hk
    exact hn.table_lt hcount hother
  · intro k hk
    obtain ⟨a, -, rfl⟩ := List.mem_map.1 hk
    cases hg : n.foreign? a with
    | none => exact (by decide : 0 < wordLimit)
    | some m =>
      obtain ⟨g, -, hg⟩ := Option.bind_eq_some_iff.1 hg
      exact hn.field_lt hcount hg
  · rw [List.length_map, ← (forall₂_of_mapM has).length_eq, (forall₂_of_mapM hnative).length_eq]

theorem lt_of_reference {a : Field} {ref : Reference} (h : reference s n a = .ok (some ref)) :
    ref.field < wordLimit ∧ ref.table < wordLimit := by
  unfold reference at h
  cases ha : a.foreign with
  | none => simp [ha, pure_eq_ok] at h
  | some g =>
    cases hg : n.field? g with
    | none => simp [ha, hg, pure_eq_ok] at h
    | some m =>
      simp only [ha, hg, bind_eq_ok, Numbers.table_eq_ok, pure_eq_ok, Option.some.injEq] at h
      obtain ⟨b, -, k, hk, rfl⟩ := h
      exact ⟨hn.field_lt hcount hg, hn.table_lt hcount hk⟩

theorem writableRow_of_fieldRow (hr : Representable s selection) (hf : f ∈ s.selected selection)
    {r : Row} (h : fieldRow s n f = .ok r) : WritableRow r := by
  simp only [fieldRow, bind_eq_ok, writtenField_eq_ok, Numbers.field_eq_ok, Numbers.table_eq_ok,
    pure_eq_ok] at h
  obtain ⟨a, ha, m, hm, k, hk, ref, href, rfl⟩ := h
  obtain ⟨a', ha', hcheck⟩ := hr.fields f hf
  cases ha.symm.trans ha'
  obtain ⟨⟨-, hdelimiter, hline⟩, hdefault⟩ := checkField_eq_ok.1 hcheck
  refine ⟨hn.field_lt hcount hm, hn.table_lt hcount hk, ?_, ?_, ⟨hdelimiter, hline⟩, hdefault⟩
  · rintro _ rfl
    exact lt_of_reference hn hcount href
  · change a.dataType.code < wordLimit
    cases a.dataType <;> decide

theorem writable_numbered (hr : Representable s selection) {file : SaveFile}
    (h : numbered s n selection = .ok file) : Writable file := by
  simp only [numbered, bind_eq_ok, pure_eq_ok] at h
  obtain ⟨blocks, hblocks, rows, hrows, rfl⟩ := h
  constructor
  · intro b hb
    obtain ⟨id, hid, hb⟩ := exists_of_mem_mapM hblocks b hb
    exact writableBlock_of_tableBlock hn hcount hr hid hb
  · intro r hrow
    obtain ⟨rs, hrs, hrow⟩ := List.mem_flatten.1 hrow
    obtain ⟨id, hid, hrs⟩ := exists_of_mem_mapM hrows rs hrs
    simp only [tableRows, bind_eq_ok, writtenTable_eq_ok] at hrs
    obtain ⟨t, ht, hrs⟩ := hrs
    obtain ⟨f, hf, hrow⟩ := exists_of_mem_mapM hrs r hrow
    rw [← tableAt_eq ht] at hf
    exact writableRow_of_fieldRow hn hcount hr (mem_selected_of_column hid hf) hrow

end Lines

/-- Whatever is written comes back from its text, as long as its numbers fit. -/
theorem writable_ofSchema (hl : Layout s)
    (hsize : selection.length + (s.selected selection).length < wordLimit) {file : SaveFile}
    (h : (ofSchema s selection).outcome = .ok file) : Writable file := by
  obtain ⟨n, hn, hfile⟩ := ofSchema_eq_ok.1 h
  rw [← length_cells] at hsize
  exact writable_numbered (.ofSelection hn) hsize (representable_of_ofSchema hl h) hfile

end Schemata.SaveFile
