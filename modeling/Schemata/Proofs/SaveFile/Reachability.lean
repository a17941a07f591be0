import Schemata.Proofs.Model.History
import Schemata.Proofs.SaveFile.Assembly

/-!
# Schemata read from save files are reachable

Putting a file together asks for operations of the schema only. So all that holds of every reachable
schema holds of whatever a save file is read into.
-/
namespace Schemata.SaveFile
open Schema

theorem reachable_addTable {draft draft' : Draft} {b : Block} (h : Reachable draft.1)
    (hb : addTable draft b = .ok draft') : Reachable draft'.1 := by
  simp only [addTable, bind_eq_ok, accepted_eq_ok, pure_eq_ok] at hb
  obtain ⟨c, hc, rfl⟩ := hb
  exact h.addTable hc

theorem reachable_addRelated {places : Places} {b : Block} {table : TableId} {s s' : Schema}
    {related : Nat} (h : Reachable s) (hs : addRelated places b table s related = .ok s') :
    Reachable s' := by
  simp only [addRelated, bind_eq_ok, accepted_eq_ok, pure_eq_ok] at hs
  obtain ⟨_, -, c, hc, rfl⟩ := hs
  exact h.addRelated hc

theorem reachable_addColumn {table : TableId} {draft draft' : Draft} {r : Row}
    (h : Reachable draft.1) (hr : addColumn table draft r = .ok draft') : Reachable draft'.1 := by
  simp only [addColumn, bind_eq_ok, accepted_eq_ok, pure_eq_ok] at hr
  obtain ⟨_, -, c, hc, c', hc', rfl⟩ := hr
  exact (h.addField hc).updateField hc'

theorem reachable_fillTable {rows : List Row} {draft draft' : Draft} {b : Block}
    (h : Reachable draft.1) (hb : fillTable rows draft b = .ok draft') : Reachable draft'.1 := by
  simp only [fillTable, bind_eq_ok] at hb
  obtain ⟨table, -, s, hs, listed, -, hcolumns⟩ := hb
  have hreach : Reachable s :=
    foldlM_invariant (fun _ _ _ h hs => reachable_addRelated h hs) h hs
  exact foldlM_invariant (P := fun draft => Reachable draft.1)
    (fun _ _ _ h hr => reachable_addColumn h hr) hreach hcolumns

theorem reachable_bindRow {places : Places} {s s' : Schema} {r : Row} (h : Reachable s)
    (hr : bindRow places s r = .ok s') : Reachable s' := by
  unfold bindRow at hr
  cases hf : r.foreign with
  | none =>
    rw [hf] at hr
    cases hr
    exact h
  | some ref =>
    simp only [hf, bind_eq_ok] at hr
    obtain ⟨native, -, target, -, g, -, hr⟩ := hr
    split at hr
    · simp only [bind_eq_ok, accepted_eq_ok, pure_eq_ok] at hr
      obtain ⟨f, -, c, hc, c', hc', rfl⟩ := hr
      exact (h.addRelated hc).bind hc'
    · cases hr

/-- The tables of a file with all their columns, before any reference is made. -/
def fill (file : SaveFile) : Except ParseError Draft := do
  let draft ← file.blocks.foldlM addTable ({}, {})
  file.rows.forM (checkOwner draft.2)
  file.blocks.foldlM (fillTable file.rows) draft

theorem toSchema_eq (file : SaveFile) :
    file.toSchema = fill file >>= fun draft => file.rows.foldlM (bindRow draft.2) draft.1 := by
  simp only [toSchema, fill, bind_assoc]

theorem reachable_fill {file : SaveFile} {draft : Draft} (h : fill file = .ok draft) :
    Reachable draft.1 := by
  simp only [fill, bind_eq_ok] at h
  obtain ⟨made, hmade, _, -, hfilled⟩ := h
  have htables : Reachable made.1 :=
    foldlM_invariant (P := fun draft => Reachable draft.1)
      (fun _ _ _ h hb => reachable_addTable h hb) reachable_empty hmade
  exact foldlM_invariant (P := fun draft => Reachable draft.1)
    (fun _ _ _ h hb => reachable_fillTable h hb) htables hfilled

theorem reachable_toSchema {file : SaveFile} {s : Schema} (h : file.toSchema = .ok s) :
    Reachable s := by
  rw [toSchema_eq, bind_eq_ok] at h
  obtain ⟨draft, hdraft, hs⟩ := h
  exact foldlM_invariant (fun _ _ _ h hr => reachable_bindRow h hr) (reachable_fill hdraft) hs

/-- Every schema that a text is read into could have been built by operations. -/
theorem reachable_readSchema {text : String} {s : Schema} (h : readSchema text = .ok s) :
    Reachable s := by
  simp only [readSchema, bind_eq_ok] at h
  obtain ⟨file, -, hs⟩ := h
  exact reachable_toSchema hs

end Schemata.SaveFile
