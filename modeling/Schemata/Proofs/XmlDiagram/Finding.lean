import Schemata.Proofs.Format.Completeness
import Schemata.Proofs.Format.Endings
import Schemata.Proofs.XmlDiagram.References

/-!
# Documents find what they look up

A document refers to tables and fields by their names. What a name leads to is there, and a name is
taken only after it has been looked up. So a schema has nothing to refuse.
-/
namespace Schemata.XmlDiagram
open Schema Xml
variable {A : SchemaError → Prop} {s s' : Schema} {element root : Node} {name : String}

/-! ### The table section -/

theorem within_of_mem_fieldFaults {table : String} {done : List Node} {e : ParseError}
    (h : e ∈ fieldFaults table done element) : e.Within A := by
  unfold fieldFaults typeFaults at h
  split at h <;> simp only [List.mem_append, mem_faultIf] at h <;>
    rcases h with ⟨-, rfl⟩ | ⟨-, rfl⟩ | ⟨-, rfl⟩ <;> exact trivial

theorem within_of_mem_tableFaults {done : List Node} {e : ParseError}
    (h : e ∈ tableFaults done element) : e.Within A := by
  simp only [tableFaults, List.mem_append, mem_faultIf] at h
  rcases h with ⟨-, rfl⟩ | ⟨-, rfl⟩ | ⟨-, rfl⟩ | ⟨-, rfl⟩ | ⟨-, rfl⟩ | h
  · exact trivial
  · exact trivial
  · exact trivial
  · exact trivial
  · exact trivial
  · obtain ⟨_, _, _, h⟩ := exists_of_mem_faultsAlong h
    exact within_of_mem_fieldFaults h

theorem within_of_mem_rootFaults {e : ParseError} (h : e ∈ rootFaults root) : e.Within A := by
  simp only [rootFaults, List.mem_append, mem_faultIf] at h
  rcases h with ⟨-, rfl⟩ | ⟨-, rfl⟩ | ⟨-, rfl⟩ | h
  · exact trivial
  · exact trivial
  · exact trivial
  · obtain ⟨_, _, _, h⟩ := exists_of_mem_faultsAlong h
    exact within_of_mem_tableFaults h

/-! ### Relations -/

theorem within_of_mem_relationFaults {tables : List Node} {e : ParseError}
    (h : e ∈ relationFaults tables element) : e.Within A := by
  simp only [relationFaults, gaps, endFaults, List.mem_append, mem_faultIf] at h
  rcases h with (⟨-, rfl⟩ | ⟨-, rfl⟩ | (⟨-, rfl⟩ | ⟨-, rfl⟩) | ⟨-, rfl⟩ | (⟨-, rfl⟩ | ⟨-, rfl⟩) |
    ⟨-, rfl⟩ | ⟨-, rfl⟩ | ⟨-, rfl⟩) | ⟨-, rfl⟩ <;> exact trivial

theorem ends_readRoot (root : Node) :
    Ends (ParseError.Within A) (fun _ => True) (readRoot root) := by
  rw [readRoot_eq]
  apply (Ends.of_judged (judged_readSection root) fun _ => within_of_mem_rootFaults).bind
  rintro s hs ⟨hlists, hunlinked⟩
  have hpart := judged_onlyChild root "relationships" (.notOneSection "relationships")
  apply (Ends.of_judged hpart fun e he => (mem_faultIf.1 he).2 ▸ trivial).bind
  intro part _ _
  have hrelations := judged_addRelations hlists (reachable_readSection hs) hunlinked
    (part.childrenNamed "relation")
  apply (Ends.of_judged hrelations fun e he => ?_).mono fun _ _ => trivial
  obtain ⟨r, -, he⟩ := List.mem_flatMap.1 he
  exact within_of_mem_relationFaults he

theorem ends_readSchema (document : DocumentReader) (text : String) :
    Ends (ParseError.Within A) (fun _ => True) (readSchema document text) := by
  have hdocument : Ends (fun _ => True) (fun _ => True) (document text) :=
    ⟨fun _ => trivial, fun _ => trivial⟩
  apply (hdocument.mapError fun _ _ => trivial).bind
  exact fun root _ _ => ends_readRoot root

/-! ### Look-ups -/

/-- A schema in the making whose columns are searched for a name, as one may be added or a relation
names one. -/
inductive Searched (root : Node) : Schema → Prop
  | columns {s₀ s : Schema} {element : Node} {c : Change TableId}
    (htables : Passes addTable {} (tableElements root) s₀) (he : element ∈ tableElements root)
    (hadd : s₀.addTable (tableName element) = .ok c)
    (hcolumns : Passes (addField c.reply) c.schema (fieldElements element) s) : Searched root s
  | relations {s₀ s : Schema} {part : Node} (hsection : readSection root = .ok s₀)
    (hpart : part ∈ root.childrenNamed "relationships")
    (hrelations : Passes addRelation s₀ (part.childrenNamed "relation") s) : Searched root s

theorem reachable_of_searched (h : Searched root s) : Reachable s := by
  cases h with
  | columns htables _ hadd hcolumns =>
    have htables := htables.invariant (fun _ _ _ h hs => reachable_addTable h hs) reachable_empty
    exact hcolumns.invariant (fun _ _ _ h hs => reachable_addField h hs) (htables.addTable hadd)
  | relations hsection _ hrelations =>
    exact hrelations.invariant (fun _ _ _ h hs => reachable_addRelation h hs)
      (reachable_readSection hsection)

end Schemata.XmlDiagram
