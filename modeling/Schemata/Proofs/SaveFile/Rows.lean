import Schemata.Proofs.Outcome
import Schemata.Proofs.SaveFile.Blocks

/-!
# Written rows and files read back

Rows are cut where they stand, without trimming: the first nine delimiters end columns, and all that
follows is the default, with further delimiters and blanks at its ends.
-/
namespace Schemata.SaveFile
open Text LineReader

/-- What a row must be like so that its columns can be told apart again. -/
structure WritableRow (r : Row) : Prop where
  id : r.id < wordLimit
  table : r.table < wordLimit
  foreign : ∀ ref, r.foreign = some ref → ref.field < wordLimit ∧ ref.table < wordLimit
  typeCode : r.typeCode < wordLimit
  name : delimiter ∉ r.name.toList ∧ IsLine r.name.toList
  default : IsLine r.default.toList

/-- The columns before the default. -/
def fixedColumns (r : Row) : List Line :=
  [decimal r.id, r.name.toList, decimal r.table] ++ referenceColumns r.foreign ++
    [decimal r.typeCode, decimal r.length.toNat, flag r.primaryKey, flag r.notNull]

theorem rowColumns_eq (r : Row) : rowColumns r = fixedColumns r ++ [r.default.toList] := by
  simp [rowColumns, fixedColumns]

theorem length_fixedColumns (r : Row) : (fixedColumns r).length = 9 := by
  unfold fixedColumns
  cases r.foreign <;> rfl

/-- A property of all texts between delimiters. -/
theorem forall_fixedColumns {P : Line → Prop} {r : Row} (hdigits : ∀ n, P (decimal n))
    (hname : P r.name.toList) (hnull : P "null".toList) (hflag : ∀ on, P (flag on)) :
    ∀ w ∈ fixedColumns r, P w := by
  unfold fixedColumns
  cases r.foreign <;>
    simp only [referenceColumns, List.cons_append, List.nil_append, List.forall_mem_cons, hdigits,
      hname, hnull, hflag, List.not_mem_nil, false_imp_iff, implies_true, and_self]

theorem isLine_rowLine {r : Row} (h : WritableRow r) : IsLine (rowLine r) := by
  apply isLine_intercalate
  rw [rowColumns_eq, List.forall_mem_append]
  constructor
  · apply forall_fixedColumns isLine_decimal h.name.2
    · exact ⟨by decide, by decide⟩
    · intro on
      cases on <;> exact ⟨by decide, by decide⟩
  · simpa using h.default

theorem splitFirst_rowLine {r : Row} (h : WritableRow r) :
    splitFirst delimiter 9 (rowLine r) = rowColumns r := by
  have hfree : ∀ w ∈ fixedColumns r, delimiter ∉ w := by
    apply forall_fixedColumns
    · exact not_mem_decimal (by decide)
    · exact h.name.1
    · decide
    · decide
  rw [rowLine, rowColumns_eq, ← length_fixedColumns r]
  exact splitFirst_intercalate r.default.toList hfree

/-! ### Columns -/

theorem readNumber_decimal (what : RowNumber) {n : Nat} (h : n < wordLimit) :
    readNumber what (decimal n) = .ok n := by
  rw [readNumber, trim_decimal, readWord?_decimal h]

theorem readFlag_flag (on : Bool) : readFlag (flag on) = on := by
  cases on <;> decide

theorem decimal_ne_null (n : Nat) : (decimal n == "null".toList) = false := by
  apply beq_eq_false_iff_ne.2
  intro he
  exact not_mem_decimal (c := 'n') (by decide) n (he ▸ by decide)

theorem readReference_columns (name : String) {foreign : Option Reference}
    (h : ∀ ref, foreign = some ref → ref.field < wordLimit ∧ ref.table < wordLimit) :
    ∃ field table, referenceColumns foreign = [field, table] ∧
      readReference name (trim field) (trim table) = .ok foreign := by
  cases foreign with
  | none => exact ⟨_, _, rfl, rfl⟩
  | some ref =>
    obtain ⟨hfield, htable⟩ := h ref rfl
    refine ⟨_, _, rfl, ?_⟩
    simp only [readReference, trim_decimal, decimal_ne_null, readNumber_decimal _ hfield,
      readNumber_decimal _ htable]
    rfl

theorem readRow_rowLine {r : Row} (h : WritableRow r) : readRow (rowLine r) = .ok r := by
  obtain ⟨field, table, hcolumns, href⟩ := readReference_columns r.name h.foreign
  have hlength : r.length.toNat < wordLimit := r.length.toNat_lt
  rw [readRow, splitFirst_rowLine h, rowColumns, hcolumns]
  simp only [List.cons_append, List.nil_append, String.ofList_toList, href,
    readNumber_decimal _ h.id, readNumber_decimal _ h.table, readNumber_decimal _ h.typeCode,
    readNumber_decimal _ hlength, readFlag_flag, List.headD_cons]
  change Except.ok { r with length := UInt32.ofNat r.length.toNat } = Except.ok r
  rw [UInt32.ofNat_toNat]

theorem trim_rowLine (r : Row) : trim (rowLine r) ≠ [] := by
  obtain ⟨c, digits, hc⟩ := List.exists_cons_of_ne_nil (decimal_ne_nil r.id)
  have hblank : isBlank c = false :=
    isBlank_of_isDigit (isDigit_of_mem_decimal (hc ▸ List.mem_cons_self))
  have hline : ∃ rest, rowLine r = c :: rest := by
    rw [rowLine, rowColumns, List.append_assoc, List.cons_append, List.cons_append,
      List.intercalate_cons_cons, hc]
    exact ⟨_, rfl⟩
  obtain ⟨rest, hline⟩ := hline
  rw [hline]
  exact trim_ne_nil hblank

theorem readRows_written {rows : List Row} (h : ∀ r ∈ rows, WritableRow r) (number : Nat) :
    readRows number (rows.map rowLine) = .ok rows := by
  induction rows generalizing number with
  | nil => rfl
  | cons r rows ih =>
    have hr := readRow_rowLine (h r List.mem_cons_self)
    have htail := ih (fun r' hr' => h r' (List.mem_cons_of_mem _ hr')) (number + 1)
    rw [List.map_cons, readRows, if_neg (trim_rowLine r), hr, htail]
    rfl

/-! ### Files -/

structure Writable (file : SaveFile) : Prop where
  blocks : ∀ b ∈ file.blocks, WritableBlock b
  rows : ∀ r ∈ file.rows, WritableRow r

theorem isLine_fileLines {file : SaveFile} (h : Writable file) :
    ∀ l ∈ fileLines file, IsLine l := by
  simp only [fileLines, List.forall_mem_append, List.forall_mem_cons]
  refine ⟨⟨⟨⟨?_, ?_, List.forall_mem_nil _⟩, ?_⟩, ?_, List.forall_mem_nil _⟩, ?_⟩
  · exact ⟨by decide, by decide⟩
  · exact ⟨by decide, by decide⟩
  · intro l hl
    obtain ⟨b, hb, hl⟩ := List.mem_flatMap.1 hl
    exact isLine_blockLines (h.blocks b hb) l hl
  · exact ⟨by decide, by decide⟩
  · intro l hl
    obtain ⟨r, hr, rfl⟩ := List.mem_map.1 hl
    exact isLine_rowLine (h.rows r hr)

/-- The blocks at the front of a file whose further lines need not be rows. -/
theorem readBlocks_written {blocks : List Block} (h : ∀ b ∈ blocks, WritableBlock b)
    (rest : List Line) :
    readBlocks ⟨0, [signature.toList, "#Tables#".toList] ++ blocks.flatMap blockLines ++
      "#Fields#".toList :: rest⟩ = .ok blocks ⟨2 + 7 * blocks.length + 1, rest⟩ := by
  have hsignature (rest : List Line) : expectSignature signature ⟨0, signature.toList :: rest⟩ =
      .ok () ⟨1, rest⟩ := by
    rw [expectSignature, signatureFrom, if_neg (by decide), if_pos (by decide)]
  rw [readBlocks, List.append_assoc]
  apply (bind_of_ok (hsignature _) _).trans
  apply (bind_of_ok (next_cons ..) _).trans
  exact eachLine_written h [] 2 rest

/-- Every writable file reads back from its text. -/
theorem ofText_render {file : SaveFile} (h : Writable file) : ofText file.render = .ok file := by
  have hlines : lines file.render.toList = fileLines file := by
    rw [render, String.toList_ofList, lines_unlines (isLine_fileLines h)]
  have hblocks := readBlocks_written h.blocks (file.rows.map rowLine)
  rw [ofText, LineCursor.ofText, hlines, fileLines, List.append_assoc, List.singleton_append]
  rw [hblocks]
  simp only [readRows_written h.rows]
  rfl

end Schemata.SaveFile
