import Schemata.Edge.Scan
import Schemata.Proofs.Format.LineReader
import Schemata.Proofs.Text

/-!
# How diagrams are written

Figures and connectors have a block each. The lines that count stand in a fixed order in it, and
other lines may stand between them.
-/
namespace Schemata.Edge
open Text LineReader

/-! ### Records -/

/-- What a block, or a line outside all blocks, tells of a diagram. -/
inductive Record
  | entity (e : Entity)
  | attribute (a : Attribute)
  | connector (c : Connector)
  | nothing

namespace Record

@[simp] def entity? : Record → Option Entity
  | .entity e => some e
  | _ => none

@[simp] def attribute? : Record → Option Attribute
  | .attribute a => some a
  | _ => none

@[simp] def connector? : Record → Option Connector
  | .connector c => some c
  | _ => none

/-- The id of a figure that a diagram records. -/
def figureId? : Record → Option Nat
  | .entity e => some e.id
  | .attribute a => some a.id
  | _ => none

/-- What a figure tells, of which only an attribute can be underlined. -/
def ofFigure (kind : FigureKind) (id : Nat) (name : String) (underlined : Bool) : Record :=
  match kind with
  | .ofEntity => .entity { id, name }
  | .ofAttribute => .attribute { id, name, underlined }

end Record

/-- The diagram that records tell of, each kind in their order. -/
def recorded (rs : List Record) : Diagram where
  entities := rs.filterMap Record.entity?
  attributes := rs.filterMap Record.attribute?
  connectors := rs.filterMap Record.connector?

theorem recorded_push (rs : List Record) (r : Record) : recorded (rs ++ [r]) =
    { entities := (recorded rs).entities ++ r.entity?.toList
      attributes := (recorded rs).attributes ++ r.attribute?.toList
      connectors := (recorded rs).connectors ++ r.connector?.toList } := by
  cases r <;> simp [recorded]

theorem recorded_nothing (rs : List Record) : recorded (rs ++ [.nothing]) = recorded rs := by
  simp [recorded_push]

theorem isFigure_recorded {rs : List Record} {id : Nat} :
    (recorded rs).isFigure id = true ↔ id ∈ rs.filterMap Record.figureId? := by
  simp only [Diagram.isFigure, Diagram.entity?, Diagram.attribute?, recorded, Bool.or_eq_true,
    List.find?_isSome, List.mem_filterMap, beq_iff_eq]
  constructor
  · rintro (⟨e, ⟨r, hr, he⟩, rfl⟩ | ⟨a, ⟨r, hr, ha⟩, rfl⟩)
    · cases r <;> cases he
      exact ⟨_, hr, rfl⟩
    · cases r <;> cases ha
      exact ⟨_, hr, rfl⟩
  · rintro ⟨r, hr, hid⟩
    cases r <;> cases hid
    · exact .inl ⟨_, ⟨_, hr, rfl⟩, rfl⟩
    · exact .inr ⟨_, ⟨_, hr, rfl⟩, rfl⟩

/-! ### Lines -/

/-- A label with a number. -/
def labelled (label : String) (id : Nat) : Line := label.toList ++ ' ' :: decimal id

/-- A label with a text between quotation marks, which may itself hold some. -/
def quotation (label : String) (inner : Line) : Line :=
  label.toList ++ ' ' :: '"' :: (inner ++ ['"'])

/-- The name that a text shows: it has no spaces and ends before the first backslash. -/
def shownName (text : Line) : Line := (text.filter (· != ' ')).takeWhile (· != '\\')

theorem figureName_eq (text : Line) : figureName text = shownName text := cut_fst _ _

theorem readWord?_labelled {label : String} (h : ' ' ∉ label.toList) {id : Nat}
    (hid : id < wordLimit) : readWord? (afterLabel (labelled label id)) = some id := by
  rw [afterLabel, labelled, cut_append _ h]
  dsimp only
  rw [trim_decimal, readWord?_decimal hid]

theorem quoted?_quotation {label : String} (h : '"' ∉ label.toList) (inner : Line) :
    quoted? (quotation label inner) = some inner := by
  have hlabel : '"' ∉ label.toList ++ [' '] := by simp [h]
  have hline : quotation label inner = (label.toList ++ [' ']) ++ '"' :: (inner ++ ['"']) := by
    simp [quotation]
  have hreverse : (inner ++ ['"']).reverse = [] ++ '"' :: inner.reverse := by simp
  rw [quoted?, hline, cut_append _ hlabel, Option.bind_eq_bind, Option.bind_some, hreverse,
    cut_append _ List.not_mem_nil]
  simp

theorem startsWith_append {keyword : String} {line : Line} (h : keyword.toList <+: line)
    (rest : Line) : startsWith keyword (line ++ rest) = true :=
  List.isPrefixOf_iff_prefix.2 (h.trans (List.prefix_append _ _))

/-! ### Blocks -/

/-- The lines of a figure. -/
def figureBlock (id : Nat) (content : List Line) : List Line :=
  labelled "Figure" id :: (content ++ [blockEnd])

/-- The lines of a connector, with what stands before each line that counts and before the end. -/
def connectorBlock (c : Connector) (gap₁ gap₂ gap₃ gap₄ gap₅ : List Line) : List Line :=
  labelled "Connector" c.id ::
    (gap₁ ++ [labelled "Figure1" c.first] ++ (gap₂ ++ [labelled "Figure2" c.second] ++
      (gap₃ ++ [quotation "End1" c.firstEnd.toList] ++
        (gap₄ ++ [quotation "End2" c.secondEnd.toList] ++ (gap₅ ++ [blockEnd])))))

/-- The word that the style of a figure begins with. -/
def FigureKind.style : FigureKind → String
  | ofEntity => "Entity"
  | ofAttribute => "Attribute"

/-- How a record is written, but for the blanks at the ends of lines. -/
inductive Written : Record → List Line → Prop
  | figure {kind : FigureKind} {id : Nat} {name : String} {before after : List Line}
      {style text : Line} (hid : id < wordLimit) (hbefore : Passed "Style" before)
      (hstyle : startsWith kind.style style = true) (hname : name.toList = shownName text)
      (hne : name ≠ "") (hafter : Inside after) :
    Written (.ofFigure kind id name (after.any (startsWith "TypeUnderl")))
      (figureBlock id (before ++ [quotation "Style" style] ++ quotation "Text" text :: after))
  | otherStyle {id : Nat} {before after : List Line} {style : Line} (hid : id < wordLimit)
      (hbefore : Passed "Style" before) (hrelation : startsWith "Relation" style = false)
      (hentity : startsWith "Entity" style = false)
      (hattribute : startsWith "Attribute" style = false) (hafter : Inside after) :
    Written .nothing (figureBlock id (before ++ [quotation "Style" style] ++ after))
  | noStyle {id : Nat} {content : List Line} (hid : id < wordLimit)
      (hcontent : Passed "Style" content) : Written .nothing (figureBlock id content)
  | connector {c : Connector} {gap₁ gap₂ gap₃ gap₄ gap₅ : List Line} (hid : c.id < wordLimit)
      (hfirst : c.first < wordLimit) (hsecond : c.second < wordLimit)
      (hgap₁ : Passed "Figure1" gap₁) (hgap₂ : Passed "Figure2" gap₂) (hgap₃ : Passed "End1" gap₃)
      (hgap₄ : Passed "End2" gap₄) (hgap₅ : Inside gap₅) :
    Written (.connector c) (connectorBlock c gap₁ gap₂ gap₃ gap₄ gap₅)
  | line {l : Line} (hfigure : startsWith "Figure " l = false)
      (hconnector : startsWith "Connector " l = false) : Written .nothing [l]

end Schemata.Edge
