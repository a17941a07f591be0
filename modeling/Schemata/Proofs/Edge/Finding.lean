import Schemata.Proofs.Edge.Depiction
import Schemata.Proofs.Format.Completeness

/-!
# Diagrams find what they look up

Each entity is noted with its table before any table is filled, and connectors relate only entities
of the diagram. So all that is looked up is there, and a schema can only refuse a second column with
one name.
-/
namespace Schemata.Edge
open Schema
variable {d : Diagram} {l : Links} {s : Schema} {e : Entity}

theorem within_of_mem_entityFaults {err : ParseError} (h : err ∈ entityFaults d l e) :
    err.Within SchemaError.IsDuplicateField := by
  obtain ⟨done, a, -, h⟩ := exists_of_mem_faultsAlong h
  obtain ⟨-, rfl⟩ := mem_faultIf.1 h
  exact ⟨e.name, a.name, rfl⟩

theorem ends_assemble (hd : d.Drawn) (hr : Resolved d d.connectors l) :
    Ends (ParseError.Within SchemaError.IsDuplicateField) (Filled d l d.entities)
      (assemble d l) := by
  apply Ends.of_judged (judged_assemble hd hr)
  intro err herr
  obtain ⟨e, -, herr⟩ := List.mem_flatMap.1 herr
  exact within_of_mem_entityFaults herr

theorem ends_readSchema (text : String) :
    Ends (ParseError.Within SchemaError.IsDuplicateField) (fun _ => True)
      (readSchema text).outcome := by
  apply (ends_ofText text).report
  intro d _ hd
  apply (ends_links hd.distinct).report
  intro l _ hr
  apply (ends_assemble hd hr).report
  exact fun s _ _ => .ok trivial

/-! ### Look-ups -/

/-- A schema in the making whose columns are searched for a name, as one may be added. -/
inductive Searched (d : Diagram) (l : Links) : Schema → Prop
  | columns {s₀ s₁ s₂ s : Schema} {tables : Tables} {e : Entity} {table : TableId}
    (hmade : d.entities.foldlM addTable ({}, []) = .ok (s₀, tables))
    (hfilled : Passes (fillTable d l tables) s₀ d.entities s₁) (he : e ∈ d.entities)
    (htable : tables.lookup e.id = some table)
    (hrelated : (l.relatedTo e.id).foldlM (addRelated tables table) s₁ = .ok s₂)
    (hcolumns : Passes (addColumn table) s₂
      (d.attributes.filter fun a => l.owner? a.id == some e.id) s) : Searched d l s

theorem reachable_of_searched (h : Searched d l s) : Reachable s := by
  obtain ⟨hmade, hfilled, -, -, hrelated, hcolumns⟩ := h
  have hmade := foldlM_invariant (P := fun made => Reachable made.1)
    (fun _ _ _ h he => reachable_addTable h he) reachable_empty hmade
  have hfilled := hfilled.invariant (fun _ _ _ h hs => reachable_fillTable h hs) hmade
  have hrelated := foldlM_invariant (fun _ _ _ h hs => reachable_addRelated h hs) hfilled hrelated
  exact hcolumns.invariant (fun _ _ _ h hs => reachable_addColumn h hs) hrelated

/-- What is looked up while a diagram with these links becomes a schema is there: the table of an
entity, the tables of the entities related to it, and the columns of a table that is being
filled. -/
structure Finds (d : Diagram) (l : Links) : Prop where
  tables : ∀ s tables, d.entities.foldlM addTable ({}, []) = .ok (s, tables) →
    ∀ e ∈ d.entities, ∀ id ∈ e.id :: l.relatedTo e.id,
      ∃ table, tables.lookup id = some table ∧ s.HasTable table
  columns : ∀ s, Searched d l s → Linked s

theorem finds_of_drawn (hd : d.Drawn) (hl : d.links = .ok l) : Finds d l where
  tables s tables hmade e he id hid := by
    cases (foldlM_addTable hd.entityNames).symm.trans hmade
    have hentity : d.IsEntity id := by
      rcases List.mem_cons.1 hid with rfl | hid
      · exact ⟨e, he, rfl⟩
      · have hr := (ends_links (A := fun _ => False) hd.distinct).given hl
        exact ((hr.related e.id id).1 hid).2.1
    exact ⟨_, lookup_entityTables hd hentity, (filled_nil d l).hasTable hentity⟩
  columns s h := linked_of_reachable (reachable_of_searched h)

end Schemata.Edge
