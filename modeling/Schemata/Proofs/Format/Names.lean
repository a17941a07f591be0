import Schemata.Proofs.Edge.Finding
import Schemata.Proofs.Model.Naming
import Schemata.Proofs.SaveFile.Finding
import Schemata.Proofs.SaveFile.Keeping
import Schemata.Proofs.XmlDiagram.Finding

/-!
# Names of what is read

Diagrams and diagram documents leave no name blank. A save file names its tables, but its rows are
taken as they are, so a field has the name that its row gives it, be it blank. Each input format asks
the schema for operations on records that it has found, so that only names can be in the way: diagram
documents look names up beforehand, diagrams do so for entities, and save files leave it to the
schema.
-/
namespace Schemata
open Schema

/-! ### Diagrams -/

namespace Edge
variable {d : Diagram} {l : Links} {s s' : Schema} {tables : Tables} {table : TableId} {e : Entity}

theorem named_addRelated {entity : Nat} (h : Named s)
    (hs : addRelated tables table s entity = .ok s') : Named s' := by
  unfold addRelated at hs
  cases ho : tables.lookup entity with
  | none =>
    rw [ho] at hs
    cases hs
    exact h
  | some other =>
    simp only [ho, bind_eq_ok, accepted_eq_ok, pure_eq_ok] at hs
    obtain ⟨c, hc, rfl⟩ := hs
    exact h.addRelated hc

theorem named_addColumn {a : Attribute} (ha : a.name ≠ "") (h : Named s)
    (hs : addColumn table s a = .ok s') : Named s' := by
  simp only [addColumn, bind_eq_ok, accepted_eq_ok, pure_eq_ok] at hs
  obtain ⟨c, hc, c', hc', rfl⟩ := hs
  exact (h.addField ha hc).updateField hc'

theorem named_fillTable (hd : d.Drawn) (h : Named s) (hs : fillTable d l tables s e = .ok s') :
    Named s' := by
  simp only [fillTable, bind_eq_ok] at hs
  obtain ⟨table, -, s₁, hrelated, hcolumns⟩ := hs
  have hs₁ : Named s₁ := foldlM_invariant (fun _ _ _ h hs => named_addRelated h hs) h hrelated
  apply foldlM_keeps _ hs₁ hcolumns
  intro a ha s s' h hs
  exact named_addColumn (hd.attributesNamed a (List.mem_of_mem_filter ha)) h hs

theorem named_assemble (hd : d.Drawn) (h : assemble d l = .ok s) : Named s := by
  simp only [assemble, bind_eq_ok] at h
  obtain ⟨made, htables, hs⟩ := h
  have hmade : Named made.1 := by
    apply foldlM_keeps (P := fun made => Named made.1) _ named_empty htables
    intro e he made made' h hadd
    simp only [addTable, bind_eq_ok, accepted_eq_ok, pure_eq_ok] at hadd
    obtain ⟨c, hc, rfl⟩ := hadd
    exact h.addTable (hd.entitiesNamed e he) hc
  exact foldlM_invariant (fun _ _ _ h hs => named_fillTable hd h hs) hmade hs

theorem named_readSchema {text : String} (h : (readSchema text).outcome = .ok s) : Named s := by
  obtain ⟨d, hd, h⟩ := outcome_bind_eq_ok.1 h
  obtain ⟨l, -, h⟩ := outcome_bind_eq_ok.1 h
  obtain ⟨s₁, hs, he⟩ := outcome_bind_eq_ok.1 h
  cases he
  exact named_assemble ((ends_ofText (A := fun _ => False) text).given hd) hs

end Edge

/-! ### Diagram documents -/

namespace XmlDiagram
open Xml
variable {s s' : Schema} {table : TableId} {element root : Node}

theorem named_addField (h : Named s) (hs : addField table s element = .ok s') : Named s' := by
  unfold addField at hs
  dsimp only at hs
  split at hs
  · cases hs
  · rename_i hname
    obtain ⟨t, -, hs⟩ := bind_eq_ok.1 hs
    split at hs
    · cases hs
    · simp only [bind_eq_ok, accepted_eq_ok, pure_eq_ok] at hs
      obtain ⟨type, -, c, hc, c', hc', rfl⟩ := hs
      exact (h.addField (by simpa using hname) hc).updateField hc'

theorem named_addTable (h : Named s) (hs : addTable s element = .ok s') : Named s' := by
  obtain ⟨part, -, hs⟩ := bind_eq_ok.1 hs
  dsimp only at hs
  split at hs
  · cases hs
  · rename_i hname
    split at hs
    · cases hs
    · obtain ⟨fields, -, hs⟩ := bind_eq_ok.1 hs
      split at hs
      · cases hs
      · simp only [bind_eq_ok, accepted_eq_ok] at hs
        obtain ⟨c, hc, hs⟩ := hs
        exact foldlM_invariant (fun _ _ _ h hs => named_addField h hs)
          (h.addTable (by simpa using hname) hc) hs

theorem named_addRelation (h : Named s) (hs : addRelation s element = .ok s') : Named s' := by
  obtain ⟨_, _, _, _, c, c', hc, hc', rfl⟩ := changes_of_addRelation hs
  exact (h.addRelated hc).bind hc'

theorem named_readSchema {document : DocumentReader} {text : String}
    (h : readSchema document text = .ok s) : Named s := by
  obtain ⟨root, -, h⟩ := bind_eq_ok.1 h
  unfold readRoot at h
  split at h
  · simp only [readTables, bind_eq_ok] at h
    obtain ⟨s₁, ⟨part, -, htables⟩, part', -, hs⟩ := h
    split at htables
    · cases htables
    · have hs₁ : Named s₁ :=
        foldlM_invariant (fun _ _ _ h hs => named_addTable h hs) named_empty htables
      exact foldlM_invariant (fun _ _ _ h hs => named_addRelation h hs) hs₁ hs
  · cases h

end XmlDiagram

/-! ### Save files -/

namespace SaveFile
variable {file : SaveFile} {draft : Draft} {s : Schema}

theorem Assembled.map_name (h : Assembled file draft s) :
    s.fields.map (·.name) = (placedRows file).map Row.name := by
  have hnames : List.Forall₂ (· = ·) (s.fields.map (·.name)) ((placedRows file).map Row.name) := by
    rw [List.forall₂_map_left_iff, List.forall₂_map_right_iff]
    exact (h.attached.fields.imp fun _ _ hf => hf.name).flip
  exact List.forall₂_eq_eq_eq ▸ hnames

theorem names_of_readSchema {text : String} (h : readSchema text = .ok s) :
    (∀ t ∈ s.tables, t.name ≠ "") ∧ ∃ file, ofText text = .ok file ∧
      ((∀ f ∈ s.fields, f.name ≠ "") ↔ ∀ r ∈ placedRows file, r.name ≠ "") := by
  obtain ⟨file, hfile, hs⟩ := bind_eq_ok.1 h
  obtain ⟨draft, hassembled⟩ := assembled_of_toSchema hs
  constructor
  · have hblocks := (ends_ofText (A := fun _ => False) text).given hfile
    rw [← List.forall_mem_map (P := fun n => n ≠ ""), hassembled.attached.names,
      List.forall_mem_map]
    exact hblocks
  · refine ⟨file, hfile, ?_⟩
    rw [← List.forall_mem_map (P := fun n => n ≠ ""), hassembled.map_name, List.forall_mem_map]

end SaveFile

/-! ### All formats -/

/-- Whatever the text, and however documents are read, the schema only refuses names that it has, as far as the format leaves that
to it, and nothing that is looked up on the way is missing. -/
theorem readers_refuse_only_duplicates (document : Xml.DocumentReader) (text : String) :
    (∀ e, XmlDiagram.readSchema document text ≠ .error (.schema e)) ∧
    (∀ e, (Edge.readSchema text).outcome = .error (.schema e) → e.IsDuplicateField) ∧
    (∀ e, SaveFile.readSchema text = .error (.schema e) → e.IsDuplicate) ∧
    (XmlDiagram.readSchema document text ≠ .error .recordLost ∧
      (Edge.readSchema text).outcome ≠ .error .recordLost ∧
      SaveFile.readSchema text ≠ .error .recordLost) ∧
    (∀ root s, document text = .ok root → XmlDiagram.Searched root s → Linked s) ∧
    (∀ d l, Edge.Diagram.ofText text = .ok d → d.links = .ok l → Edge.Finds d l) ∧
    ∀ file, SaveFile.ofText text = .ok file → SaveFile.Finds file := by
  have hxml := XmlDiagram.ends_readSchema (A := fun _ => False) document text
  have hedge := Edge.ends_readSchema text
  have hsave := SaveFile.ends_readSchema text
  refine ⟨fun e => hxml.refused, fun e => hedge.refused, fun e => hsave.refused,
    ⟨hxml.refused, hedge.refused, hsave.refused⟩, ?_, ?_, ?_⟩
  · intro root s _ hs
    exact linked_of_reachable (XmlDiagram.reachable_of_searched hs)
  · intro d l hd hl
    exact Edge.finds_of_drawn ((Edge.ends_ofText (A := fun _ => False) text).given hd) hl
  · exact fun file _ => SaveFile.finds file

/-- Whatever text is accepted, and however documents are read, only a field of a save file can have a blank name: that of a row that
gives none. -/
theorem names_of_readers (document : Xml.DocumentReader) (text : String) (s : Schema) :
    ((Edge.readSchema text).outcome = .ok s → Named s) ∧
    (XmlDiagram.readSchema document text = .ok s → Named s) ∧
    (SaveFile.readSchema text = .ok s → (∀ t ∈ s.tables, t.name ≠ "") ∧
      ∃ file, SaveFile.ofText text = .ok file ∧
        ((∀ f ∈ s.fields, f.name ≠ "") ↔ ∀ r ∈ SaveFile.placedRows file, r.name ≠ "")) :=
  ⟨Edge.named_readSchema, XmlDiagram.named_readSchema, SaveFile.names_of_readSchema⟩

namespace SaveFile

/-- A table with a field that its row gives no name. -/
def nameless : SaveFile where
  blocks := [⟨1, "A", [2], [], [0]⟩]
  rows := [⟨2, "", 1, none, 0, 1, false, false, ""⟩]

theorem writable_nameless : Writable nameless := by
  refine ⟨fun b hb => ?_, fun r hr => ?_⟩
  · rw [List.mem_singleton.1 hb]
    constructor <;> decide
  · rw [List.mem_singleton.1 hr]
    constructor <;> decide

theorem nameless_accepted : ∃ s, readSchema nameless.render = .ok s ∧
    s.fields.map (·.name) = [""] := by
  refine ⟨⟨[{ name := "A", columns := [⟨0⟩] }], [{ name := "", table := ⟨0⟩ }]⟩, ?_, rfl⟩
  rw [readSchema, ofText_render writable_nameless]
  rfl

end SaveFile
end Schemata
