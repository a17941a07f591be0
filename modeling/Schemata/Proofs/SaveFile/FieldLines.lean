import Schemata.Proofs.SaveFile.Reading
import Schemata.Proofs.SaveFile.Rows

/-!
# The lines of fields

A save file is cut at the line that ends its blocks. Each line after it holds a field, and other
lines can be put in their place: fewer of them, the same in another order, or blank ones in between.
-/
namespace Schemata.SaveFile
open Text LineReader

/-- The line between the blocks and the fields. -/
def fieldsLine : Line := "#Fields#".toList

def tableLines (text : String) : List Line :=
  (lines text.toList).takeWhile (· != fieldsLine)

def fieldLines (text : String) : List Line :=
  ((lines text.toList).dropWhile (· != fieldsLine)).tail

/-- The text with other lines in place of those of its fields. -/
def withFieldLines (text : String) (ls : List Line) : String :=
  String.ofList (unlines (tableLines text ++ fieldsLine :: ls))

variable {file : SaveFile}

/-! ### Written files -/

/-- The lines up to the end of the blocks. -/
def headLines (file : SaveFile) : List Line :=
  [signature.toList, "#Tables#".toList] ++ file.blocks.flatMap blockLines

theorem fileLines_eq (file : SaveFile) :
    fileLines file = headLines file ++ fieldsLine :: file.rows.map rowLine := by
  rw [fileLines, List.append_assoc]
  rfl

/-- No line of a block begins like the one that ends all blocks. -/
theorem ne_fieldsLine (file : SaveFile) : ∀ l ∈ headLines file, (l != fieldsLine) = true := by
  intro l hl
  have hstart : l.head? ≠ some '#' ∨ l = "#Tables#".toList := by
    simp only [headLines, signature, blockLines, List.mem_append, List.mem_cons, List.mem_flatMap,
      List.not_mem_nil, or_false] at hl
    rcases hl with (rfl | rfl) | ⟨b, -, rfl | rfl | rfl | rfl | rfl | rfl | rfl⟩ <;> simp
  rw [bne_iff_ne]
  rintro rfl
  rcases hstart with hstart | hstart
  · exact hstart (by decide)
  · exact absurd hstart (by decide)

theorem lines_render (h : Writable file) :
    lines file.render.toList = headLines file ++ fieldsLine :: file.rows.map rowLine := by
  rw [render, String.toList_ofList, lines_unlines (isLine_fileLines h), fileLines_eq]

theorem tableLines_render (h : Writable file) : tableLines file.render = headLines file := by
  rw [tableLines, lines_render h, List.takeWhile_append_of_pos (ne_fieldsLine file),
    List.takeWhile_cons_of_neg (by simp), List.append_nil]

theorem fieldLines_render (h : Writable file) :
    fieldLines file.render = file.rows.map rowLine := by
  rw [fieldLines, lines_render h, List.dropWhile_append_of_pos (ne_fieldsLine file),
    List.dropWhile_cons_of_neg (by simp), List.tail_cons]

/-- Put back as they are, the lines give the same text. -/
theorem withFieldLines_render (h : Writable file) :
    withFieldLines file.render (fieldLines file.render) = file.render := by
  rw [withFieldLines, tableLines_render h, fieldLines_render h, render, fileLines_eq]

/-! ### Reading -/

/-- Blank lines between the rows, and carriage returns at their ends, are passed over. -/
theorem readRows_of_filled {rows : List Row} (h : ∀ r ∈ rows, WritableRow r) {ls : List Line}
    (hfilled : filledLines ls = rows.map rowLine) (number : Nat) :
    readRows number (ls.map fun l => (dropReturn l.reverse).reverse) = .ok rows := by
  induction ls generalizing rows number with
  | nil =>
    cases List.map_eq_nil_iff.1 hfilled.symm
    rfl
  | cons l ls ih =>
    rw [List.map_cons, readRows, trim_dropReturn]
    by_cases hl : trim l = []
    · rw [if_pos hl]
      apply ih h
      rwa [filledLines, List.filter_cons_of_neg (by simp [hl])] at hfilled
    · rw [if_neg hl]
      rw [filledLines, List.filter_cons_of_pos (by simp [hl])] at hfilled
      obtain ⟨r, rows, rfl, rfl, hrest⟩ := List.map_eq_cons_iff.1 hfilled.symm
      obtain ⟨hr, hrows⟩ := List.forall_mem_cons.1 h
      rw [reverse_dropReturn (isLine_rowLine hr).2, readRow_rowLine hr,
        ih hrows hrest.symm (number + 1)]
      rfl

/-- With other lines of fields, a written file reads back with the rows of these. -/
theorem ofText_withFieldLines (h : Writable file) {rows : List Row}
    (hrows : ∀ r ∈ rows, WritableRow r) {ls : List Line} (hls : ∀ l ∈ ls, '\n' ∉ l)
    (hfilled : filledLines ls = rows.map rowLine) :
    ofText (withFieldLines file.render ls) = .ok { file with rows } := by
  have hhead : ∀ l ∈ headLines file ++ [fieldsLine], IsLine l := by
    intro l hl
    apply isLine_fileLines h
    rw [fileLines_eq, List.append_cons]
    exact List.mem_append_left _ hl
  have hlines : lines (withFieldLines file.render ls).toList =
      headLines file ++ fieldsLine :: ls.map fun l => (dropReturn l.reverse).reverse := by
    have hall : ∀ l ∈ (headLines file ++ [fieldsLine]) ++ ls, '\n' ∉ l :=
      List.forall_mem_append.2 ⟨fun l hl => (hhead l hl).1, hls⟩
    have hkept : (headLines file ++ [fieldsLine]).map
        (fun l => (dropReturn l.reverse).reverse) = headLines file ++ [fieldsLine] :=
      (List.map_congr_left fun l hl => reverse_dropReturn (hhead l hl).2).trans (List.map_id _)
    rw [withFieldLines, tableLines_render h, String.toList_ofList, unlines, List.append_cons,
      lines_flatMap hall, List.map_append, hkept, List.append_assoc, List.singleton_append]
  have hblocks : readBlocks ⟨0, headLines file ++
      fieldsLine :: ls.map fun l => (dropReturn l.reverse).reverse⟩ = _ :=
    readBlocks_written h.blocks _
  rw [ofText, LineCursor.ofText, hlines, hblocks]
  simp only [readRows_of_filled hrows hfilled]
  rfl

end Schemata.SaveFile
