import Schemata.Edge.Diagram
import Schemata.Format.LineReader

/-!
# Diagram files

A diagram file begins with a signature and consists of blocks for figures and connectors, in any
order and with any other lines between them. A block ends with a line that holds a closing brace
alone.
-/
namespace Schemata.Edge
open Text LineReader

def signature : String := "EDGE Diagram File"

/-- The name that a figure shows: drawing programs set it with spaces, and add codes for its font
from a backslash on. -/
def figureName (text : Line) : Line := (cut '\\' (text.filter (· != ' '))).1

/-- The kinds of figures that a diagram records. -/
inductive FigureKind
  | ofEntity | ofAttribute
deriving DecidableEq

/-- The kind of figure with this style; relations have to be resolved before. -/
def figureKind? (style : Line) : Except ParseError (Option FigureKind) :=
  if startsWith "Relation" style then .error .containsRelations
  else if startsWith "Entity" style then .ok (some .ofEntity)
  else if startsWith "Attribute" style then .ok (some .ofAttribute)
  else .ok none

def Diagram.addFigure (d : Diagram) (kind : FigureKind) (id : Nat) (name : String)
    (underlined : Bool) : Except ParseError Diagram :=
  match kind with
  | .ofAttribute => .ok { d with attributes := d.attributes ++ [{ id, name, underlined }] }
  | .ofEntity =>
    if d.entities.any (·.name == name) then .error (.duplicateTable name)
    else .ok { d with entities := d.entities ++ [{ id, name }] }

def ofExcept {α : Type} : Except ParseError α → LineReader α
  | .ok a => pure a
  | .error e => throw e

/-- The rest of a figure block after its style. -/
def readFigureBody (d : Diagram) (id : Nat) (kind : FigureKind) : LineReader Diagram := do
  let line ← next .figureBlock
  if startsWith "Text" line then
    let name := figureName (← quoted line)
    if name = [] then throw .blankName
    else
      let lines ← scanBlock .figureBlock
      if d.isFigure id then refuse (.figureTwice id)
      else
        ofExcept (d.addFigure kind id (String.ofList name) (lines.any (startsWith "TypeUnderl")))
  else refuse .noText

/-- A figure block. A block without a style, or with one of no interest here, adds nothing. -/
def readFigure (d : Diagram) (id : Nat) : LineReader Diagram := do
  match ← findInBlock? "Style" .figureBlock with
  | none => return d
  | some line =>
    match ← ofExcept (figureKind? (← quoted line)) with
    | some kind => readFigureBody d id kind
    | none =>
      let _ ← scanBlock .figureBlock
      return d

def readConnector (d : Diagram) (id : Nat) : LineReader Diagram := do
  let first ← labelledId (← seekInBlock "Figure1" .connectorBlock)
  let second ← labelledId (← seekInBlock "Figure2" .connectorBlock)
  let firstEnd ← quoted (← seekInBlock "End1" .connectorBlock)
  let secondEnd ← quoted (← seekInBlock "End2" .connectorBlock)
  let _ ← scanBlock .connectorBlock
  return { d with connectors := d.connectors ++
    [{ id, first, second, firstEnd := String.ofList firstEnd,
       secondEnd := String.ofList secondEnd }] }

/-- What a line outside all blocks begins. -/
def readRecord (d : Diagram) (line : Line) : LineReader Diagram := do
  if startsWith "Figure " line then readFigure d (← labelledId line)
  else if startsWith "Connector " line then readConnector d (← labelledId line)
  else return d

theorem forward_ofExcept {α : Type} (r : Except ParseError α) : Forward (ofExcept r) := by
  cases r
  · exact forward_throw _
  · exact forward_pure _

theorem forward_readFigureBody (d : Diagram) (id : Nat) (kind : FigureKind) :
    Forward (readFigureBody d id kind) := by
  refine (forward_next _).bind fun line => ?_
  split
  · refine (forward_quoted _).bind fun name => ?_
    dsimp only
    split
    · exact forward_throw _
    · refine (forward_scanBlock _).bind fun lines => ?_
      split
      · exact forward_refuse _
      · exact forward_ofExcept _
  · exact forward_refuse _

theorem forward_readFigure (d : Diagram) (id : Nat) : Forward (readFigure d id) := by
  refine (forward_findInBlock? _ _).bind fun line => ?_
  cases line with
  | none => exact forward_pure _
  | some line =>
    refine (forward_quoted _).bind fun style => (forward_ofExcept _).bind fun kind => ?_
    cases kind with
    | none => exact (forward_scanBlock _).bind fun _ => forward_pure _
    | some kind => exact forward_readFigureBody d id kind

theorem forward_readConnector (d : Diagram) (id : Nat) : Forward (readConnector d id) :=
  (forward_seekInBlock _ _).bind fun _ => (forward_labelledId _).bind fun _ =>
  (forward_seekInBlock _ _).bind fun _ => (forward_labelledId _).bind fun _ =>
  (forward_seekInBlock _ _).bind fun _ => (forward_quoted _).bind fun _ =>
  (forward_seekInBlock _ _).bind fun _ => (forward_quoted _).bind fun _ =>
  (forward_scanBlock _).bind fun _ => forward_pure _

theorem forward_readRecord (d : Diagram) (line : Line) : Forward (readRecord d line) := by
  unfold readRecord
  split
  · exact (forward_labelledId _).bind fun id => forward_readFigure d id
  · split
    · exact (forward_labelledId _).bind fun id => forward_readConnector d id
    · exact forward_pure _

/-- A line outside all blocks, after which reading goes on. -/
def step (d : Diagram) (line : Line) : LineReader (Diagram × Bool) := do
  return (← readRecord d line, true)

theorem forward_step (d : Diagram) (line : Line) : Forward (step d line) :=
  (forward_readRecord d line).bind fun _ => forward_pure _

def readDiagram : LineReader Diagram := do
  expectSignature signature
  eachLine step forward_step {}

/-- The diagram that a file describes. -/
def Diagram.ofText (text : String) : Except ParseError Diagram :=
  match readDiagram (LineCursor.ofText text) with
  | .ok d _ => .ok d
  | .error e _ => .error e

end Schemata.Edge
