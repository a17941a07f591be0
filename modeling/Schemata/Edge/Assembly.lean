import Schemata.Edge.Links
import Schemata.Edge.Scan
import Schemata.Format.Report

/-!
# The schema of a diagram

Each entity becomes a table and each attribute that has an entity a column of its table. A diagram
says nothing about types, so every column gets the same one until someone decides.
-/
namespace Schemata.Edge

/-- Entities with the tables made of them, the latest first. -/
abbrev Tables := List (Nat × TableId)

def addTable (made : Schema × Tables) (e : Entity) : Except ParseError (Schema × Tables) := do
  let added ← accepted (made.1.addTable e.name)
  return (added.schema, (e.id, added.reply) :: made.2)

def addRelated (tables : Tables) (table : TableId) (s : Schema) (entity : Nat) :
    Except ParseError Schema := do
  match tables.lookup entity with
  | some other => return (← accepted (s.addRelated table other)).schema
  | none => return s

def addColumn (table : TableId) (s : Schema) (a : Attribute) : Except ParseError Schema := do
  let added ← accepted (s.addField table a.name)
  let settled ← accepted (added.schema.updateField added.reply
    [.dataType .varchar, .allowNull true, .primaryKey a.underlined])
  return settled.schema

/-- Fills the table of an entity: its relations first, then its columns in the order in which the
attributes were recorded. -/
def fillTable (d : Diagram) (l : Links) (tables : Tables) (s : Schema) (e : Entity) :
    Except ParseError Schema := do
  let table ← recorded (tables.lookup e.id)
  let s ← (l.relatedTo e.id).foldlM (addRelated tables table) s
  (d.attributes.filter fun a => l.owner? a.id == some e.id).foldlM (addColumn table) s

def assemble (d : Diagram) (l : Links) : Except ParseError Schema := do
  let (s, tables) ← d.entities.foldlM addTable ({}, [])
  d.entities.foldlM (fillTable d l tables) s

/-- The attributes without an entity, of which a schema knows nothing. -/
def unconnected (d : Diagram) (l : Links) : List Attribute :=
  d.attributes.filter fun a => (l.owner? a.id).isNone

/-- Warns of each attribute that is left out. -/
def Diagram.toSchema (d : Diagram) : Report ParseError Schema := do
  let l ← d.links
  let s ← assemble d l
  ⟨.ok s, (unconnected d l).map fun a => .unconnectedAttribute a.name⟩

def readSchema (text : String) : Report ParseError Schema := do
  (← Diagram.ofText text).toSchema

end Schemata.Edge
