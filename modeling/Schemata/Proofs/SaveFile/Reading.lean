import Schemata.Proofs.Format.Endings
import Schemata.SaveFile.Reader
import Mathlib.Data.List.Forall2

/-!
# Save files that have been read

Every block has a name, and each line after the blocks that is not blank has become one row. Whatever
the lines are, no fault of theirs is one of the schema.
-/
namespace Schemata.SaveFile
open Text LineReader
variable {A : SchemaError → Prop}

/-! ### Blocks -/

def AllNamed (blocks : List Block) : Prop := ∀ b ∈ blocks, b.name ≠ ""

theorem yields_readIds (label : String) :
    Yields (ParseError.Within A) (fun _ => True) (readIds label) := by
  unfold readIds
  apply (yields_next .tableBlock).bind
  intro line _
  split
  · dsimp only
    split
    · exact yields_refuse _
    · exact yields_pure trivial
  · exact yields_refuse _

theorem yields_readBlockBody (id : Nat) {name : String} (hname : name ≠ "") :
    Yields (ParseError.Within A) (fun b => b.name ≠ "") (readBlockBody id name) := by
  unfold readBlockBody
  apply (yields_readIds _).bind
  intro native _
  apply (yields_readIds _).bind
  intro related _
  apply (yields_readIds _).bind
  intro relatedFields _
  split
  · apply (yields_next .tableBlock).bind
    intro line _
    split
    · exact yields_pure hname
    · exact yields_refuse _
  · exact yields_refuse _

theorem yields_readBlock (header : Line) :
    Yields (ParseError.Within A) (fun b => b.name ≠ "") (readBlock header) := by
  unfold readBlock
  apply (yields_labelledId header).bind
  intro id _
  apply (yields_next .tableBlock).bind
  intro line _
  split
  · apply (yields_next .tableBlock).bind
    intro line _
    dsimp only
    split
    · exact yields_throw trivial
    · rename_i hname
      exact yields_readBlockBody id (by simpa using hname)
  · exact yields_refuse _

theorem yields_step {blocks : List Block} (h : AllNamed blocks) (line : Line) :
    Yields (ParseError.Within A) (fun r => AllNamed r.1) (step blocks line) := by
  unfold step
  split
  · apply (yields_readBlock line).bind
    exact fun b hb => yields_pure (List.forall_mem_append.2 ⟨h, List.forall_mem_singleton.2 hb⟩)
  · exact yields_pure h

theorem yields_readBlocks : Yields (ParseError.Within A) AllNamed readBlocks :=
  (yields_expectSignature signature).bind fun _ _ => (yields_next .saveHeader).bind fun _ _ =>
    yields_eachLine (fun _ line h => yields_step h line) (List.forall_mem_nil _)

/-! ### Rows -/

/-- The lines that hold rows. -/
def filledLines (ls : List Line) : List Line := ls.filter fun l => trim l != []

theorem readRows_eq_ok {number : Nat} {ls : List Line} {rows : List Row}
    (h : readRows number ls = .ok rows) :
    List.Forall₂ (fun l r => readRow l = .ok r) (filledLines ls) rows := by
  induction ls generalizing number rows with
  | nil =>
    cases h
    exact .nil
  | cons l ls ih =>
    unfold readRows at h
    by_cases hl : trim l = []
    · rw [if_pos hl] at h
      rw [filledLines, List.filter_cons, if_neg (by simp [hl])]
      exact ih h
    · simp only [if_neg hl, bind_eq_ok, mapError_eq_ok, pure_eq_ok] at h
      obtain ⟨r, hr, rows, hrows, rfl⟩ := h
      rw [filledLines, List.filter_cons, if_pos (by simp [hl])]
      exact .cons hr (ih hrows)

theorem ends_readRows (number : Nat) (ls : List Line) :
    Ends (ParseError.Within A) (fun _ => True) (readRows number ls) := by
  induction ls generalizing number with
  | nil => exact .ok trivial
  | cons l ls ih =>
    unfold readRows
    split
    · exact ih (number + 1)
    · have hrow : Ends (fun _ => True) (fun _ => True) (readRow l) :=
        ⟨fun _ => trivial, fun _ => trivial⟩
      apply (hrow.mapError fun _ _ => trivial).bind
      intro r _ _
      apply (ih (number + 1)).bind
      exact fun _ _ _ => .ok trivial

/-- The lines of a text that hold rows: of those after the blocks, all that are not blank. -/
def rowLines (text : String) : List Line :=
  match readBlocks (LineCursor.ofText text) with
  | .ok _ c => filledLines c.rest
  | .error _ _ => []

theorem rowLines_of_ofText {text : String} {file : SaveFile} (h : ofText text = .ok file) :
    List.Forall₂ (fun l r => readRow l = .ok r) (rowLines text) file.rows := by
  unfold ofText at h
  unfold rowLines
  cases hblocks : readBlocks (LineCursor.ofText text) with
  | error e c =>
    rw [hblocks] at h
    cases h
  | ok blocks c =>
    simp only [hblocks, bind_eq_ok, pure_eq_ok] at h
    obtain ⟨rows, hrows, rfl⟩ := h
    exact readRows_eq_ok hrows

theorem ends_ofText (text : String) :
    Ends (ParseError.Within A) (fun file => AllNamed file.blocks) (ofText text) := by
  have hread : Yields (ParseError.Within A) AllNamed readBlocks := yields_readBlocks
  unfold ofText
  cases hr : readBlocks (LineCursor.ofText text) with
  | error e c => exact .error (hread.refused hr)
  | ok blocks c =>
    apply (ends_readRows c.number c.rest).bind
    exact fun _ _ _ => .ok (hread.given hr)

end Schemata.SaveFile
