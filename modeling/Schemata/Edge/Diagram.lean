import Schemata.Text.Split

/-!
# Entity-relationship diagrams

A diagram is drawn with figures and connectors between them. Some figures are entities and some are
attributes; no two of these have the same id. A connector may end anywhere.
-/
namespace Schemata.Edge

structure Entity where
  id : Nat
  name : String
deriving DecidableEq, Repr

structure Attribute where
  id : Nat
  name : String
  /-- An underlined attribute belongs to the key of its entity. -/
  underlined : Bool
deriving DecidableEq, Repr

structure Connector where
  id : Nat
  first : Nat
  second : Nat
  firstEnd : String
  secondEnd : String
deriving DecidableEq, Repr

structure Diagram where
  entities : List Entity := []
  attributes : List Attribute := []
  connectors : List Connector := []
deriving DecidableEq, Repr

/-- Does this style of a connector's end stand for many? -/
def standsForMany (style : String) : Bool := Text.occurs "many".toList style.toList

def Connector.isManyToMany (c : Connector) : Bool :=
  standsForMany c.firstEnd && standsForMany c.secondEnd

namespace Diagram

def entity? (d : Diagram) (id : Nat) : Option Entity := d.entities.find? (·.id == id)

def attribute? (d : Diagram) (id : Nat) : Option Attribute := d.attributes.find? (·.id == id)

def isFigure (d : Diagram) (id : Nat) : Bool := (d.entity? id).isSome || (d.attribute? id).isSome

end Diagram
end Schemata.Edge
