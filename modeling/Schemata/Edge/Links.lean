import Schemata.Edge.Diagram
import Schemata.Format.ParseError

/-!
# What the connectors of a diagram say

A connector between two entities relates them to each other, and one between an attribute and an
entity gives the attribute to the entity. Connectors count in order: each is held against what the
earlier ones have said.
-/
namespace Schemata.Edge

structure Links where
  /-- Each attribute that has an entity, with it. -/
  owners : List (Nat × Nat) := []
  /-- Pairs of entities of which the first is related to the second, without repetition. -/
  related : List (Nat × Nat) := []
deriving DecidableEq, Repr

namespace Links

/-- The entity of an attribute. -/
def owner? (l : Links) (id : Nat) : Option Nat := l.owners.lookup id

/-- The entities that an entity is related to, in the order in which this was first said. -/
def relatedTo (l : Links) (entity : Nat) : List Nat :=
  l.related.filterMap fun p => if p.1 = entity then some p.2 else none

def relate (l : Links) (a b : Nat) : Links :=
  if l.related.contains (a, b) then l else { l with related := l.related ++ [(a, b)] }

/-- Gives an attribute to an entity; it must not have another one. -/
def own (l : Links) (a : Attribute) (e : Entity) : Except ParseError Links :=
  match l.owner? a.id with
  | none => .ok { l with owners := l.owners ++ [(a.id, e.id)] }
  | some owner => if owner = e.id then .ok l else .error (.multipleTables a.name)

end Links

namespace Diagram

/-- What one more connector adds. One that does not join two figures of the diagram adds nothing. -/
def connect (d : Diagram) (l : Links) (c : Connector) : Except ParseError Links :=
  match d.attribute? c.first, d.attribute? c.second with
  | some _, some _ => .error .compositeAttributes
  | a, a' =>
    match d.entity? c.first, d.entity? c.second with
    | some e, some e' =>
      if c.isManyToMany then .error (.manyToMany e.name e'.name)
      else .ok ((l.relate e.id e'.id).relate e'.id e.id)
    | e, e' =>
      match a.or a', e.or e' with
      | some a, some e => l.own a e
      | _, _ => .ok l

def links (d : Diagram) : Except ParseError Links := d.connectors.foldlM d.connect {}

end Diagram
end Schemata.Edge
