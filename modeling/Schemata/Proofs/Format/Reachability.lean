import Schemata.Format.Catalog
import Schemata.Proofs.SaveFile.Reachability

/-!
# Whatever is read is reachable

Each input format puts its schema together by operations of the schema only. So what holds of every
reachable schema holds of every schema that any input format reads.
-/
namespace Schemata
open Schema

/-! ### Diagrams -/

namespace Edge

theorem reachable_addTable {made made' : Schema × Tables} {e : Entity} (h : Reachable made.1)
    (he : addTable made e = .ok made') : Reachable made'.1 := by
  simp only [addTable, bind_eq_ok, accepted_eq_ok, pure_eq_ok] at he
  obtain ⟨c, hc, rfl⟩ := he
  exact h.addTable hc

theorem reachable_addRelated {tables : Tables} {table : TableId} {s s' : Schema} {entity : Nat}
    (h : Reachable s) (hs : addRelated tables table s entity = .ok s') : Reachable s' := by
  unfold addRelated at hs
  cases ho : tables.lookup entity with
  | none =>
    rw [ho] at hs
    cases hs
    exact h
  | some other =>
    simp only [ho, bind_eq_ok, accepted_eq_ok, pure_eq_ok] at hs
    obtain ⟨c, hc, rfl⟩ := hs
    exact h.addRelated hc

theorem reachable_addColumn {table : TableId} {s s' : Schema} {a : Attribute} (h : Reachable s)
    (hs : addColumn table s a = .ok s') : Reachable s' := by
  simp only [addColumn, bind_eq_ok, accepted_eq_ok, pure_eq_ok] at hs
  obtain ⟨c, hc, c', hc', rfl⟩ := hs
  exact (h.addField hc).updateField hc'

theorem reachable_fillTable {d : Diagram} {l : Links} {tables : Tables} {s s' : Schema}
    {e : Entity} (h : Reachable s) (hs : fillTable d l tables s e = .ok s') : Reachable s' := by
  simp only [fillTable, bind_eq_ok] at hs
  obtain ⟨table, -, s₁, hrelated, hcolumns⟩ := hs
  have hreach : Reachable s₁ :=
    foldlM_invariant (fun _ _ _ h hs => reachable_addRelated h hs) h hrelated
  exact foldlM_invariant (fun _ _ _ h hs => reachable_addColumn h hs) hreach hcolumns

theorem reachable_assemble {d : Diagram} {l : Links} {s : Schema} (h : assemble d l = .ok s) :
    Reachable s := by
  simp only [assemble, bind_eq_ok] at h
  obtain ⟨made, htables, hs⟩ := h
  have hreach : Reachable made.1 :=
    foldlM_invariant (P := fun made => Reachable made.1)
      (fun _ _ _ h he => reachable_addTable h he) reachable_empty htables
  exact foldlM_invariant (fun _ _ _ h hs => reachable_fillTable h hs) hreach hs

theorem reachable_readSchema {text : String} {s : Schema}
    (h : (readSchema text).outcome = .ok s) : Reachable s := by
  obtain ⟨d, -, hd⟩ := outcome_bind_eq_ok.1 h
  obtain ⟨l, -, hl⟩ := outcome_bind_eq_ok.1 hd
  obtain ⟨s₁, hs, he⟩ := outcome_bind_eq_ok.1 hl
  cases he
  exact reachable_assemble hs

end Edge

/-! ### Diagram documents -/

namespace XmlDiagram
open Xml

theorem reachable_addField {table : TableId} {s s' : Schema} {element : Node} (h : Reachable s)
    (hs : addField table s element = .ok s') : Reachable s' := by
  unfold addField at hs
  dsimp only at hs
  split at hs
  · cases hs
  · obtain ⟨t, -, hs⟩ := bind_eq_ok.1 hs
    split at hs
    · cases hs
    · simp only [bind_eq_ok, accepted_eq_ok, pure_eq_ok] at hs
      obtain ⟨type, -, c, hc, c', hc', rfl⟩ := hs
      exact (h.addField hc).updateField hc'

theorem reachable_addTable {s s' : Schema} {element : Node} (h : Reachable s)
    (hs : addTable s element = .ok s') : Reachable s' := by
  obtain ⟨part, -, hs⟩ := bind_eq_ok.1 hs
  dsimp only at hs
  split at hs
  · cases hs
  · split at hs
    · cases hs
    · obtain ⟨fields, -, hs⟩ := bind_eq_ok.1 hs
      split at hs
      · cases hs
      · simp only [bind_eq_ok, accepted_eq_ok] at hs
        obtain ⟨c, hc, hs⟩ := hs
        exact foldlM_invariant (fun _ _ _ h hs => reachable_addField h hs) (h.addTable hc) hs

theorem reachable_readTables {root : Node} {s : Schema} (h : readTables root = .ok s) :
    Reachable s := by
  obtain ⟨part, -, h⟩ := bind_eq_ok.1 h
  dsimp only at h
  split at h
  · cases h
  · exact foldlM_invariant (fun _ _ _ h hs => reachable_addTable h hs) reachable_empty h

/-- A relation that is accepted makes two changes. -/
theorem changes_of_addRelation {s s' : Schema} {element : Node}
    (hs : addRelation s element = .ok s') : ∃ table related native foreign c c',
      s.addRelated table related = .ok c ∧ c.schema.bind native foreign = .ok c' ∧
      s' = c'.schema := by
  simp only [addRelation, bind_eq_ok] at hs
  obtain ⟨_, -, _, -, parent, -, _, -, child, -, key, -, native, -, foreign, -, hs⟩ := hs
  split at hs
  · cases hs
  · simp only [bind_eq_ok, accepted_eq_ok, pure_eq_ok] at hs
    obtain ⟨c, hc, c', hc', rfl⟩ := hs
    exact ⟨_, _, native, foreign, c, c', hc, hc', rfl⟩

theorem reachable_addRelation {s s' : Schema} {element : Node} (h : Reachable s)
    (hs : addRelation s element = .ok s') : Reachable s' := by
  obtain ⟨_, _, _, _, c, c', hc, hc', rfl⟩ := changes_of_addRelation hs
  exact (h.addRelated hc).bind hc'

theorem reachable_readSchema {document : DocumentReader} {text : String} {s : Schema}
    (h : readSchema document text = .ok s) : Reachable s := by
  obtain ⟨root, -, h⟩ := bind_eq_ok.1 h
  unfold readRoot at h
  split at h
  · simp only [bind_eq_ok] at h
    obtain ⟨s₁, htables, part, -, hs⟩ := h
    exact foldlM_invariant (fun _ _ _ h hs => reachable_addRelation h hs)
      (reachable_readTables htables) hs
  · cases h

end XmlDiagram

/-! ### All formats -/

theorem reachable_of_input {document : Xml.DocumentReader} {source : String} {f : InputFormat}
    (hf : (Catalog.standardWith document).input? source = some f) {text : String} {s : Schema}
    (h : (f.read text).outcome = .ok s) : Reachable s := by
  have hmem : f ∈ [diagramFormat, saveInputFormat, xmlFormatWith document] :=
    List.mem_reverse.1 (List.mem_of_find?_eq_some hf)
  simp only [List.mem_cons, List.not_mem_nil, or_false] at hmem
  rcases hmem with rfl | rfl | rfl
  · exact Edge.reachable_readSchema h
  · exact SaveFile.reachable_readSchema h
  · exact XmlDiagram.reachable_readSchema h

end Schemata
