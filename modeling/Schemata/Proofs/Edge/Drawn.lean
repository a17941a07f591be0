import Schemata.Edge.Scan
import Schemata.Proofs.Edge.Run
import Schemata.Proofs.Format.Endings

/-!
# Diagrams that have been read

A figure is recorded only under an id of its own and with a name, and an entity only under a name of
its own. Whatever the lines of a file are, no fault of theirs is one of the schema.
-/
namespace Schemata.Edge
open Text LineReader
variable {A : SchemaError → Prop} {d : Diagram} {id : Nat} {kind : FigureKind} {name : String}

structure Diagram.Drawn (d : Diagram) : Prop where
  distinct : d.Distinct
  entityNames : (d.entities.map (·.name)).Nodup
  entitiesNamed : ∀ e ∈ d.entities, e.name ≠ ""
  attributesNamed : ∀ a ∈ d.attributes, a.name ≠ ""

theorem drawn_empty : Diagram.Drawn {} := ⟨by decide, by decide, by simp, by simp⟩

theorem Diagram.not_mem_of_isFigure (h : d.isFigure id = false) :
    id ∉ d.entities.map (·.id) ++ d.attributes.map (·.id) := by
  rw [isFigure, Bool.or_eq_false_iff, ← Bool.not_eq_true, ← Bool.not_eq_true, d.entity?_isSome,
    d.attribute?_isSome] at h
  rw [List.mem_append, List.mem_map, List.mem_map]
  exact not_or_intro h.1 h.2

/-! ### Figures -/

theorem Diagram.Drawn.withAttribute (h : d.Drawn) (hid : d.isFigure id = false) (hname : name ≠ "")
    (underlined : Bool) :
    Drawn { d with attributes := d.attributes ++ [{ id, name, underlined }] } where
  distinct := by
    rw [Distinct, List.map_append, ← List.append_assoc, List.map_singleton, List.nodup_middle,
      List.append_nil]
    exact h.distinct.cons (not_mem_of_isFigure hid)
  entityNames := h.entityNames
  entitiesNamed := h.entitiesNamed
  attributesNamed := List.forall_mem_append.2 ⟨h.attributesNamed, by simpa using hname⟩

theorem Diagram.Drawn.withEntity (h : d.Drawn) (hid : d.isFigure id = false) (hname : name ≠ "")
    (hfresh : ∀ e ∈ d.entities, e.name ≠ name) :
    Drawn { d with entities := d.entities ++ [{ id, name }] } where
  distinct := by
    rw [Distinct, List.map_append, List.append_assoc, List.map_singleton, List.singleton_append,
      List.nodup_middle]
    exact h.distinct.cons (not_mem_of_isFigure hid)
  entityNames := by
    rw [List.map_append, List.nodup_append]
    refine ⟨h.entityNames, by simp, ?_⟩
    simp only [List.map_singleton, List.mem_singleton, forall_eq]
    exact List.forall_mem_map.2 hfresh
  entitiesNamed := List.forall_mem_append.2 ⟨h.entitiesNamed, by simpa using hname⟩
  attributesNamed := h.attributesNamed

theorem yields_ofExcept {α : Type} {F : ParseError → Prop} {P : α → Prop} {r : Except ParseError α}
    (h : Ends F P r) : Yields F P (ofExcept r) := by
  cases r with
  | error e => exact yields_throw (h.refused rfl)
  | ok a => exact yields_pure (h.given rfl)

theorem Diagram.Drawn.addFigure (h : d.Drawn) (hid : d.isFigure id = false) (hname : name ≠ "")
    (underlined : Bool) :
    Ends (ParseError.Within A) Drawn (d.addFigure kind id name underlined) := by
  cases kind with
  | ofAttribute => exact .ok (h.withAttribute hid hname underlined)
  | ofEntity =>
    unfold Diagram.addFigure
    dsimp only
    split
    · exact .error trivial
    · rename_i hfresh
      exact .ok (h.withEntity hid hname (by simpa using hfresh))

theorem yields_readFigureBody (h : d.Drawn) (id : Nat) (kind : FigureKind) :
    Yields (ParseError.Within A) Diagram.Drawn (readFigureBody d id kind) := by
  unfold readFigureBody
  apply (yields_next .figureBlock).bind
  intro line _
  split
  · apply (yields_quoted line).bind
    intro text _
    dsimp only
    split
    · exact yields_throw trivial
    · rename_i hname
      apply (yields_scanBlock .figureBlock).bind
      intro lines _
      split
      · exact yields_refuse _
      · rename_i hid
        apply yields_ofExcept
        exact h.addFigure (Bool.eq_false_iff.2 hid) (by simpa using hname) _
  · exact yields_refuse _

theorem ends_figureKind? (style : Line) :
    Ends (ParseError.Within A) (fun _ => True) (figureKind? style) := by
  unfold figureKind?
  split
  · exact .error trivial
  · split
    · exact .ok trivial
    · split <;> exact .ok trivial

theorem yields_readFigure (h : d.Drawn) (id : Nat) :
    Yields (ParseError.Within A) Diagram.Drawn (readFigure d id) := by
  unfold readFigure
  apply (yields_findInBlock? "Style" .figureBlock).bind
  rintro (_ | line) _
  · exact yields_pure h
  · apply (yields_quoted line).bind
    intro style _
    apply (yields_ofExcept (ends_figureKind? style)).bind
    rintro (_ | kind) _
    · exact (yields_scanBlock .figureBlock).bind fun _ _ => yields_pure h
    · exact yields_readFigureBody h id kind

/-! ### Files -/

theorem yields_readConnector (h : d.Drawn) (id : Nat) :
    Yields (ParseError.Within A) Diagram.Drawn (readConnector d id) :=
  (yields_seekInBlock _ _).bind fun _ _ => (yields_labelledId _).bind fun _ _ =>
  (yields_seekInBlock _ _).bind fun _ _ => (yields_labelledId _).bind fun _ _ =>
  (yields_seekInBlock _ _).bind fun _ _ => (yields_quoted _).bind fun _ _ =>
  (yields_seekInBlock _ _).bind fun _ _ => (yields_quoted _).bind fun _ _ =>
  (yields_scanBlock _).bind fun _ _ =>
  yields_pure ⟨h.distinct, h.entityNames, h.entitiesNamed, h.attributesNamed⟩

theorem yields_step (h : d.Drawn) (line : Line) :
    Yields (ParseError.Within A) (fun r => r.1.Drawn) (step d line) := by
  have hrecord : Yields (ParseError.Within A) Diagram.Drawn (readRecord d line) := by
    unfold readRecord
    split
    · exact (yields_labelledId line).bind fun id _ => yields_readFigure h id
    · split
      · exact (yields_labelledId line).bind fun id _ => yields_readConnector h id
      · exact yields_pure h
  exact hrecord.bind fun d' hd' => yields_pure hd'

theorem yields_readDiagram : Yields (ParseError.Within A) Diagram.Drawn readDiagram :=
  (yields_expectSignature signature).bind fun _ _ =>
    yields_eachLine (fun _ line hd => yields_step hd line) drawn_empty

theorem ends_ofText (text : String) :
    Ends (ParseError.Within A) Diagram.Drawn (Diagram.ofText text) := by
  have hread : Yields (ParseError.Within A) Diagram.Drawn readDiagram := yields_readDiagram
  unfold Diagram.ofText
  cases hr : readDiagram (LineCursor.ofText text) with
  | error e c => exact .error (hread.refused hr)
  | ok d c => exact .ok (hread.given hr)

/-! ### Connectors -/

theorem Breaks.within {cs : List Connector} {c : Connector} {e : ParseError}
    (h : Breaks d cs c e) : e.Within A := by
  cases h <;> exact trivial

theorem ends_links (hd : d.Distinct) :
    Ends (ParseError.Within A) (Resolved d d.connectors) d.links := by
  rcases runsTo_links hd with ⟨l, hl, -, hr⟩ | ⟨e, _, _, _, he, -, -, hb⟩
  · exact hl ▸ .ok hr
  · exact he ▸ .error hb.within

end Schemata.Edge
