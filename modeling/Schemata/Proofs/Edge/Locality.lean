import Schemata.Proofs.Edge.Depiction
import Schemata.Proofs.Format.Locality

/-!
# Diagram files are refused line by line

Reading a diagram file stops at the first line at which something is wrong, whatever stands after
it. What only the connectors or the schema have against a diagram comes up after its last line.
-/
namespace Schemata

/-- Found because a text has ended: inside of a part, or with nothing but blank lines. -/
def ParseError.OfEnd (read : List Text.Line) : ParseError → Prop
  | .unexpectedEnd _ => True
  | .wrongFileType _ => ∀ raw ∈ read, Text.trim raw = []
  | _ => False

namespace Edge
open Text LineReader
variable {d : Diagram} {l : Links} {e : ParseError} {c c' : LineCursor} {text : String}

/-! ### Records -/

theorem local_ofExcept {α : Type} {r : Except ParseError α}
    (h : Ends (fun e => ∀ line, e.FoundAt line) (fun _ => True) r) : Local (ofExcept r) := by
  cases r with
  | error e => exact local_throw (h.refused rfl)
  | ok a => exact local_pure a

theorem ends_figureKind?_foundAt (style : Line) :
    Ends (fun e => ∀ line, e.FoundAt line) (fun _ => True) (figureKind? style) := by
  unfold figureKind?
  split
  · exact .error fun _ => ⟨trivial, nofun⟩
  · split
    · exact .ok trivial
    · split <;> exact .ok trivial

theorem ends_addFigure_foundAt (d : Diagram) (kind : FigureKind) (id : Nat) (name : String)
    (underlined : Bool) : Ends (fun e => ∀ line, e.FoundAt line) (fun _ => True)
      (d.addFigure kind id name underlined) := by
  cases kind with
  | ofAttribute => exact .ok trivial
  | ofEntity =>
    unfold Diagram.addFigure
    dsimp only
    split
    · exact .error fun _ => ⟨trivial, nofun⟩
    · exact .ok trivial

theorem local_readFigureBody (d : Diagram) (id : Nat) (kind : FigureKind) :
    Local (readFigureBody d id kind) := by
  unfold readFigureBody
  apply (local_next .figureBlock).bind
  intro line
  split
  · apply (local_quoted line).bind
    intro text
    dsimp only
    split
    · exact local_throw fun _ => ⟨trivial, nofun⟩
    · apply (local_scanBlock .figureBlock).bind
      intro lines
      split
      · exact local_refuse _
      · exact local_ofExcept (ends_addFigure_foundAt d kind id _ _)
  · exact local_refuse _

theorem local_readFigure (d : Diagram) (id : Nat) : Local (readFigure d id) := by
  unfold readFigure
  apply (local_findInBlock? "Style" .figureBlock).bind
  rintro (_ | line)
  · exact local_pure d
  · apply (local_quoted line).bind
    intro style
    apply (local_ofExcept (ends_figureKind?_foundAt style)).bind
    rintro (_ | kind)
    · exact (local_scanBlock .figureBlock).bind fun _ => local_pure d
    · exact local_readFigureBody d id kind

theorem local_readConnector (d : Diagram) (id : Nat) : Local (readConnector d id) :=
  (local_seekInBlock _ _).bind fun _ => (local_labelledId _).bind fun _ =>
  (local_seekInBlock _ _).bind fun _ => (local_labelledId _).bind fun _ =>
  (local_seekInBlock _ _).bind fun _ => (local_quoted _).bind fun _ =>
  (local_seekInBlock _ _).bind fun _ => (local_quoted _).bind fun _ =>
  (local_scanBlock _).bind fun _ => local_pure _

theorem local_step (d : Diagram) (line : Line) : Local (step d line) := by
  have hrecord : Local (readRecord d line) := by
    unfold readRecord
    split
    · exact (local_labelledId line).bind fun id => local_readFigure d id
    · split
      · exact (local_labelledId line).bind fun id => local_readConnector d id
      · exact local_pure d
  exact hrecord.bind fun d' => local_pure (d', true)

/-! ### Files -/

/-- Where a scan fails, the lines read so far decide it, or the text has ended too early. -/
theorem readDiagram_refused (h : readDiagram c = .error e c') :
    Decided readDiagram c (.error e c') ∨
      (∃ expected, e = .wrongFileType expected) ∧ ∀ raw ∈ c.rest, trim raw = [] := by
  rcases decided_expectSignature signature c with hsignature | ⟨⟨c₁, he⟩, hblank⟩
  · refine .inl (RefusesLocally.bind ?_ ?_ e c' h)
    · exact fun _ _ he => he ▸ hsignature
    · exact fun _ _ ha => ⟨ha ▸ hsignature, refusesLocally_eachLine local_step {} _⟩
  · cases (bind_of_error he _).symm.trans h
    exact .inr ⟨⟨_, rfl⟩, hblank⟩

/-- A scan that passes has read the whole text. -/
theorem readDiagram_ends (h : readDiagram c = .ok d c') :
    c' = ⟨c.number + c.rest.length, []⟩ := by
  have hmore {d : Diagram} {line : Line} {c : LineCursor} {d' : Diagram} {more : Bool}
      {c' : LineCursor} (hstep : step d line c = .ok (d', more) c') : more = true := by
    unfold step at hstep
    cases hrecord : readRecord d line c with
    | error e c₁ => cases (bind_of_error hrecord _).symm.trans hstep
    | ok d₁ c₁ =>
      cases (bind_of_ok hrecord _).symm.trans hstep
      rfl
  cases hsignature : expectSignature signature c with
  | error e c₁ => cases (bind_of_error hsignature _).symm.trans h
  | ok _ c₁ =>
    have hloop := (bind_of_ok hsignature _).symm.trans h
    rcases decided_expectSignature signature c with hdecided | ⟨⟨c₂, he⟩, -⟩
    · obtain ⟨read, ht⟩ := (hsignature ▸ hdecided).taken
      rw [eachLine_ends local_step hmore hloop, ht.count_eq]
    · cases hsignature.symm.trans he

theorem ofLines_of_readDiagram (h : readDiagram c = .error e c') : e.OfLines := by
  rcases readDiagram_refused h with hdecided | ⟨⟨expected, rfl⟩, -⟩
  · cases hdecided with
    | refused _ _ hfound => exact hfound.ofLines
    | ended part => exact trivial
  · exact trivial

/-- Texts that begin with the lines which a scan has read fail alike, unless the scan has failed for
want of more lines. -/
theorem readDiagram_of_take {k : Nat} {rest : List Line}
    (h : readDiagram (.ofText text) = .error e ⟨k, rest⟩)
    (hend : ¬e.OfEnd ((lines text.toList).take k)) :
    e.FoundAt k ∧ 1 ≤ k ∧ k ≤ (lines text.toList).length ∧
      ∀ text', (lines text'.toList).take k = (lines text.toList).take k →
        readDiagram (.ofText text') = .error e ⟨k, (lines text'.toList).drop k⟩ := by
  rcases readDiagram_refused h with hdecided | ⟨⟨expected, rfl⟩, hblank⟩
  · cases hdecided with
    | ended part => exact absurd trivial hend
    | @refused read _ _ ht hread hfound =>
      have hk : k = read.length := ht.number.trans (Nat.zero_add _)
      have htaken : (lines text.toList).take k = read := ht.take_eq rfl
      refine ⟨hfound, ?_, ?_, ?_⟩
      · -- an empty text is no diagram file either, but for want of lines
        by_contra hnone
        have hempty : read = [] := List.length_eq_zero_iff.1 (by omega)
        rw [hempty] at hread htaken
        cases hread []
        rw [htaken] at hend
        exact hend nofun
      · rw [hk, ← htaken]
        exact List.length_take_le' k _
      · intro text' htake
        have hlines : lines text'.toList = read ++ (lines text'.toList).drop k := by
          rw [← htaken, ← htake, List.take_append_drop]
        have hrest := hread ((lines text'.toList).drop k)
        rw [← hlines, ← hk] at hrest
        exact hrest.trans (by rw [LineCursor.ofText, Nat.zero_add])
  · exact absurd (fun raw hraw => hblank raw (List.mem_of_mem_take hraw)) hend

/-! ### Connectors and schemata -/

theorem not_ofLines_of_links (hd : d.Distinct) (h : d.links = .error e) : ¬e.OfLines := by
  rcases runsTo_links hd with ⟨l, hl, -⟩ | ⟨e', _, _, _, he, -, -, hb⟩
  · cases hl.symm.trans h
  · cases he.symm.trans h
    cases hb <;> exact id

theorem not_ofLines_of_assemble (hd : d.Drawn) (hr : Resolved d d.connectors l)
    (h : assemble d l = .error e) : ¬e.OfLines := by
  have hfault := (judged_assemble hd hr).error_iff.1 h
  obtain ⟨_, entity, _, -, -, hfault⟩ := head?_flatMap_eq_some.1 hfault
  obtain ⟨_, _, -, -, rfl⟩ := exists_of_head?_entityFaults hfault
  exact id

theorem outcome_of_readDiagram (h : readDiagram (.ofText text) = .error e c) :
    (readSchema text).outcome = .error e := by
  rw [readSchema, Diagram.ofText, h]
  rfl

/-- A text is refused in the scan or after a scan of the whole text, and the fault tells which. -/
theorem readSchema_refused (h : (readSchema text).outcome = .error e) :
    (e.OfLines ∧ ∃ c, readDiagram (.ofText text) = .error e c) ∨
      ¬e.OfLines ∧ ∃ d, readDiagram (.ofText text) = .ok d ⟨(lines text.toList).length, []⟩ ∧
        (d.links = .error e ∨ ∃ l, d.links = .ok l ∧ assemble d l = .error e) := by
  cases hread : readDiagram (.ofText text) with
  | error e' c =>
    cases (outcome_of_readDiagram hread).symm.trans h
    exact .inl ⟨ofLines_of_readDiagram hread, c, rfl⟩
  | ok d c =>
    have hd : Diagram.ofText text = .ok d := by rw [Diagram.ofText, hread]
    have hdrawn := (ends_ofText (A := fun _ => False) text).given hd
    have hc : c = ⟨(lines text.toList).length, []⟩ := by
      rw [readDiagram_ends hread]
      simp [LineCursor.ofText]
    cases hl : d.links with
    | error e' =>
      have he : (readSchema text).outcome = .error e' := by
        rw [readSchema, liftM_bind_of_ok hd, Diagram.toSchema, hl]
        rfl
      cases he.symm.trans h
      exact .inr ⟨not_ofLines_of_links hdrawn.distinct hl, d, hc ▸ rfl, .inl hl⟩
    | ok l =>
      have hr := (ends_links (A := fun _ => False) hdrawn.distinct).given hl
      have he := (outcome_readSchema hd hl).symm.trans h
      exact .inr ⟨not_ofLines_of_assemble hdrawn hr he, d, hc ▸ rfl, .inr ⟨l, hl, he⟩⟩

/-- Faults of lines are local: whatever a text goes on with after the line at which something is
wrong, it is refused for it. Other faults come after a scan that has passed. -/
theorem readSchema_local (text : String) :
    (∀ line fault, (readSchema text).outcome = .error (.malformed line fault) →
      1 ≤ line ∧ line ≤ (lines text.toList).length ∧
      ∀ text', (lines text'.toList).take line = (lines text.toList).take line →
        (readSchema text').outcome = .error (.malformed line fault)) ∧
    (∀ e k rest, readDiagram (.ofText text) = .error e ⟨k, rest⟩ →
      ¬e.OfEnd ((lines text.toList).take k) →
      ∀ text', (lines text'.toList).take k = (lines text.toList).take k →
        readDiagram (.ofText text') = .error e ⟨k, (lines text'.toList).drop k⟩ ∧
        (readSchema text').outcome = .error e) ∧
    ∀ e, (readSchema text).outcome = .error e →
      (e.OfLines ∧ ∃ c, readDiagram (.ofText text) = .error e c) ∨
      ¬e.OfLines ∧ ∃ d, readDiagram (.ofText text) = .ok d ⟨(lines text.toList).length, []⟩ ∧
        (d.links = .error e ∨ ∃ l, d.links = .ok l ∧ assemble d l = .error e) := by
  refine ⟨?_, ?_, fun e => readSchema_refused⟩
  · intro line fault h
    rcases readSchema_refused h with ⟨-, ⟨k, rest⟩, hread⟩ | ⟨hno, -⟩
    · obtain ⟨hfound, hpos, hle, hsame⟩ := readDiagram_of_take hread id
      cases hfound.number line fault rfl
      refine ⟨hpos, hle, ?_⟩
      intro text' htake
      exact outcome_of_readDiagram (hsame text' htake)
    · exact absurd trivial hno
  · intro e k rest hread hend text' htake
    have hread' := (readDiagram_of_take hread hend).2.2.2 text' htake
    exact ⟨hread', outcome_of_readDiagram hread'⟩

/-- An attribute that is connected to itself. -/
def selfConnected : String :=
  "EDGE Diagram File\nFigure 1\nStyle \"Attribute\"\nText \"a\"\n\x7d\n" ++
    "Connector 2\nFigure1 1\nFigure2 1\nEnd1 \"\"\nEnd2 \"\"\n\x7d\n"

def relationText : String := "EDGE Diagram File\nFigure 1\nStyle \"Relation\"\nFigure x"

/-- A figure without a number and one that is a relation, each in two texts that go on differently,
the former with other ends of lines, too; and a fault that only the connectors show. -/
theorem sketches_refused :
    ((readSchema "EDGE Diagram File\nFigure x\n").outcome = .error (.malformed 2 (.noId "x")) ∧
      (readSchema "EDGE Diagram File\r\nFigure x\r\nFigure 1").outcome =
        .error (.malformed 2 (.noId "x"))) ∧
    (readDiagram (.ofText relationText) =
        .error .containsRelations ⟨3, ["Figure x".toList]⟩ ∧
      (readSchema "EDGE Diagram File\nFigure 1\nStyle \"Relation\"").outcome =
        .error .containsRelations) ∧
    (readSchema selfConnected).outcome = .error .compositeAttributes ∧
      ∃ d, readDiagram (.ofText selfConnected) = .ok d ⟨11, []⟩ := by
  have hnumber : (readSchema "EDGE Diagram File\nFigure x\n").outcome =
      .error (.malformed 2 (.noId "x")) := by decide +kernel
  have hrelation : (readSchema relationText).outcome = .error .containsRelations := by
    decide +kernel
  have hstop : stop (readDiagram (.ofText relationText)) = ⟨3, ["Figure x".toList]⟩ := by
    decide +kernel
  have hcomposite : (readSchema selfConnected).outcome = .error .compositeAttributes := by
    decide +kernel
  refine ⟨⟨hnumber, ?_⟩, ?_, hcomposite, ?_⟩
  · exact ((readSchema_local _).1 2 _ hnumber).2.2 _ (by decide +kernel)
  · obtain ⟨-, hscan, hkind⟩ := readSchema_local relationText
    rcases hkind _ hrelation with ⟨-, c, hread⟩ | ⟨hno, -⟩
    · rw [hread] at hstop
      cases hstop
      exact ⟨hread, (hscan _ 3 _ hread id _ (by decide +kernel)).2⟩
    · exact absurd trivial hno
  · rcases (readSchema_local selfConnected).2.2 _ hcomposite with ⟨hlines, -⟩ | ⟨-, d, hread, -⟩
    · exact hlines.elim
    · exact ⟨d, hread⟩

end Edge
end Schemata
