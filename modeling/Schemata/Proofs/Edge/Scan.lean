import Schemata.Proofs.Edge.Layout
import Mathlib.Data.List.Forall2

/-!
# Written diagrams read back

Each block is left by its reader right after its own end, whatever else stands in it. So the loop
over a file meets the next record at its first line.
-/
namespace Schemata.Edge
open Text LineReader
variable {d d' : Diagram} {id : Nat} {kind : FigureKind} {before after ls : List Line}
  {style text : Line}

/-! ### Figures -/

theorem figureKind?_of_style (h : startsWith kind.style style = true) :
    figureKind? style = .ok (some kind) := by
  obtain ⟨rest, rfl⟩ := List.isPrefixOf_iff_prefix.1 h
  cases kind <;> rfl

theorem figureKind?_of_other (hrelation : startsWith "Relation" style = false)
    (hentity : startsWith "Entity" style = false)
    (hattribute : startsWith "Attribute" style = false) : figureKind? style = .ok none := by
  simp [figureKind?, hrelation, hentity, hattribute]

theorem startsWith_quotation (label : String) (inner : Line) :
    startsWith label (quotation label inner) = true :=
  startsWith_append (List.prefix_refl _) _

theorem startsWith_labelled (label : String) (id : Nat) :
    startsWith label (labelled label id) = true :=
  startsWith_append (List.prefix_refl _) _

theorem reads_readFigureBody {name : String} (hname : name.toList = shownName text)
    (hne : name ≠ "") (hafter : Inside after) (hid : d.isFigure id = false)
    (hadd : d.addFigure kind id name (after.any (startsWith "TypeUnderl")) = .ok d') :
    Reads (readFigureBody d id kind) (quotation "Text" text :: (after ++ [blockEnd])) d' := by
  have hshown : shownName text ≠ [] := by
    rw [← hname]
    simpa using hne
  unfold readFigureBody
  apply (reads_next .figureBlock (quotation "Text" text)).bind
  rw [if_pos (startsWith_quotation "Text" text)]
  apply (reads_quoted (quoted?_quotation (by decide) text)).nil_bind
  dsimp only
  rw [figureName_eq, if_neg hshown]
  apply (reads_scanBlock .figureBlock hafter).bind_nil
  rw [hid, if_neg Bool.false_ne_true, ← hname, String.ofList_toList, hadd]
  exact reads_pure d'

/-- After the style, its kind decides what is read of a figure. -/
theorem reads_readFigure {kind? : Option FigureKind} (hbefore : Passed "Style" before)
    (hkind : figureKind? style = .ok kind?)
    (h : Reads (match kind? with
      | some kind => readFigureBody d id kind
      | none => do
        let _ ← scanBlock .figureBlock
        return d) ls d') :
    Reads (readFigure d id) (before ++ [quotation "Style" style] ++ ls) d' := by
  unfold readFigure
  apply (reads_findInBlock? .figureBlock hbefore (startsWith_quotation "Style" style)).bind
  apply (reads_quoted (quoted?_quotation (by decide) style)).nil_bind
  rw [hkind]
  exact (reads_pure kind?).nil_bind h

theorem reads_readFigure_noStyle (h : Passed "Style" ls) :
    Reads (readFigure d id) (ls ++ [blockEnd]) d :=
  (reads_findInBlock?_none .figureBlock h (by decide)).bind_nil (reads_pure d)

/-! ### Connectors -/

theorem reads_readConnector {c : Connector} {gap₁ gap₂ gap₃ gap₄ gap₅ : List Line}
    (hfirst : c.first < wordLimit) (hsecond : c.second < wordLimit)
    (hgap₁ : Passed "Figure1" gap₁) (hgap₂ : Passed "Figure2" gap₂) (hgap₃ : Passed "End1" gap₃)
    (hgap₄ : Passed "End2" gap₄) (hgap₅ : Inside gap₅) :
    Reads (readConnector d c.id)
      (gap₁ ++ [labelled "Figure1" c.first] ++ (gap₂ ++ [labelled "Figure2" c.second] ++
        (gap₃ ++ [quotation "End1" c.firstEnd.toList] ++
          (gap₄ ++ [quotation "End2" c.secondEnd.toList] ++ (gap₅ ++ [blockEnd])))))
      { d with connectors := d.connectors ++ [c] } := by
  unfold readConnector
  apply (reads_seekInBlock .connectorBlock hgap₁ (startsWith_labelled _ _)).bind
  apply (reads_labelledId (readWord?_labelled (by decide) hfirst)).nil_bind
  apply (reads_seekInBlock .connectorBlock hgap₂ (startsWith_labelled _ _)).bind
  apply (reads_labelledId (readWord?_labelled (by decide) hsecond)).nil_bind
  apply (reads_seekInBlock .connectorBlock hgap₃ (startsWith_quotation _ _)).bind
  apply (reads_quoted (quoted?_quotation (by decide) _)).nil_bind
  apply (reads_seekInBlock .connectorBlock hgap₄ (startsWith_quotation _ _)).bind
  apply (reads_quoted (quoted?_quotation (by decide) _)).nil_bind
  apply (reads_scanBlock .connectorBlock hgap₅).bind_nil
  rw [String.ofList_toList, String.ofList_toList]
  exact reads_pure _

/-! ### Records -/

theorem reads_step_figure (hid : id < wordLimit) (h : Reads (readFigure d id) ls d') :
    Reads (step d (labelled "Figure" id)) ls (d', true) := by
  have hstart : startsWith "Figure " (labelled "Figure" id) = true :=
    List.isPrefixOf_iff_prefix.2 ⟨decimal id, by simp [labelled]⟩
  unfold step readRecord
  rw [if_pos hstart]
  apply Reads.bind_nil
  · exact (reads_labelledId (readWord?_labelled (by decide) hid)).nil_bind h
  · exact reads_pure _

theorem reads_step_connector (hid : id < wordLimit) (h : Reads (readConnector d id) ls d') :
    Reads (step d (labelled "Connector" id)) ls (d', true) := by
  have hstart : startsWith "Connector " (labelled "Connector" id) = true :=
    List.isPrefixOf_iff_prefix.2 ⟨decimal id, by simp [labelled]⟩
  have hfigure : startsWith "Figure " (labelled "Connector" id) = false := rfl
  unfold step readRecord
  rw [hfigure, if_neg Bool.false_ne_true, if_pos hstart]
  apply Reads.bind_nil
  · exact (reads_labelledId (readWord?_labelled (by decide) hid)).nil_bind h
  · exact reads_pure _

theorem reads_step_line {l : Line} (hfigure : startsWith "Figure " l = false)
    (hconnector : startsWith "Connector " l = false) : Reads (step d l) [] (d, true) := by
  unfold step readRecord
  rw [hfigure, hconnector, if_neg Bool.false_ne_true, if_neg Bool.false_ne_true]
  exact (reads_pure d).bind_nil (reads_pure _)

/-- A figure that is not there yet is added. -/
theorem addFigure_recorded {done : List Record} {name : String} {underlined : Bool}
    (h : ∀ e, (Record.ofFigure kind id name underlined).entity? = some e →
      ∀ e' ∈ (recorded done).entities, e'.name ≠ e.name) :
    (recorded done).addFigure kind id name underlined =
      .ok (recorded (done ++ [.ofFigure kind id name underlined])) := by
  rw [recorded_push]
  cases kind with
  | ofEntity =>
    have hnone : (recorded done).entities.any (·.name == name) = false := by
      simpa using h { id, name } rfl
    rw [Diagram.addFigure, hnone, if_neg Bool.false_ne_true]
    simp [Record.ofFigure]
  | ofAttribute =>
    rw [Diagram.addFigure]
    simp [Record.ofFigure]

/-- After other records, the loop takes the lines of one more and gathers what it tells. -/
theorem reads_written {r : Record} {block : List Line} (h : Written r block) (done : List Record)
    (hid : ∀ id, r.figureId? = some id → id ∉ done.filterMap Record.figureId?)
    (hname : ∀ e, r.entity? = some e → ∀ e' ∈ (recorded done).entities, e'.name ≠ e.name) :
    ∃ line ls, block = line :: ls ∧
      Reads (step (recorded done) line) ls (recorded (done ++ [r]), true) := by
  cases h with
  | @figure kind id name before after style text hword hbefore hstyle htext hne hafter =>
    have hfresh : (recorded done).isFigure id = false := by
      rw [← Bool.not_eq_true, isFigure_recorded]
      apply hid
      cases kind <;> rfl
    refine ⟨_, _, rfl, reads_step_figure hword ?_⟩
    rw [List.append_assoc, List.cons_append]
    apply reads_readFigure hbefore (figureKind?_of_style hstyle)
    exact reads_readFigureBody htext hne hafter hfresh (addFigure_recorded hname)
  | otherStyle hword hbefore hrelation hentity hattribute hafter =>
    refine ⟨_, _, rfl, reads_step_figure hword ?_⟩
    rw [List.append_assoc, recorded_nothing]
    apply reads_readFigure hbefore (figureKind?_of_other hrelation hentity hattribute)
    exact (reads_scanBlock .figureBlock hafter).bind_nil (reads_pure _)
  | noStyle hword hcontent =>
    rw [recorded_nothing]
    exact ⟨_, _, rfl, reads_step_figure hword (reads_readFigure_noStyle hcontent)⟩
  | connector hword hfirst hsecond hgap₁ hgap₂ hgap₃ hgap₄ hgap₅ =>
    refine ⟨_, _, rfl, reads_step_connector hword ?_⟩
    rw [recorded_push]
    simpa using reads_readConnector hfirst hsecond hgap₁ hgap₂ hgap₃ hgap₄ hgap₅
  | line hfigure hconnector =>
    rw [recorded_nothing]
    exact ⟨_, _, rfl, reads_step_line hfigure hconnector⟩

/-! ### Files -/

/-- The loop over a file gathers what its records tell. -/
theorem eachLine_written {records : List Record} {blocks : List (List Line)}
    (h : List.Forall₂ Written records blocks) (done : List Record)
    (hids : ((done ++ records).filterMap Record.figureId?).Nodup)
    (hnames : (((done ++ records).filterMap Record.entity?).map (·.name)).Nodup)
    {raws : List Line} (hraws : raws.map trim = blocks.flatten) (number : Nat) :
    eachLine step forward_step (recorded done) ⟨number, raws⟩ =
      .ok (recorded (done ++ records)) ⟨number + raws.length, []⟩ := by
  induction h generalizing done raws number with
  | nil =>
    cases List.map_eq_nil_iff.1 hraws
    rw [eachLine_nil, List.append_nil]
    rfl
  | @cons r block records blocks hr hrecords ih =>
    rw [List.flatten_cons] at hraws
    obtain ⟨raws, raws', rfl, hblock, hblocks⟩ := List.map_eq_append_iff.1 hraws
    have hid : ∀ id, r.figureId? = some id → id ∉ done.filterMap Record.figureId? := by
      intro id hid hmem
      rw [List.filterMap_append, List.filterMap_cons_some hid, List.nodup_append] at hids
      exact hids.2.2 id hmem id List.mem_cons_self rfl
    have hname : ∀ e, r.entity? = some e →
        ∀ e' ∈ (recorded done).entities, e'.name ≠ e.name := by
      intro e he e' he'
      rw [List.filterMap_append, List.filterMap_cons_some he, List.map_append, List.map_cons,
        List.nodup_append] at hnames
      exact hnames.2.2 e'.name (List.mem_map_of_mem he') e.name List.mem_cons_self
    obtain ⟨line, ls, rfl, hreads⟩ := reads_written hr done hid hname
    rw [List.append_cons] at hids hnames ⊢
    rw [eachLine_of_reads hreads hblock, ih (done ++ [r]) hids hnames hblocks, List.length_append,
      Nat.add_assoc]

/-- A diagram that has been written out is read back, whatever stands between the lines that count
and whatever blanks the lines begin and end with. -/
theorem Diagram.ofText_written {records : List Record} {blocks : List (List Line)}
    {opening : Line} {raws : List Line} (hrecords : List.Forall₂ Written records blocks)
    (hids : (records.filterMap Record.figureId?).Nodup)
    (hnames : ((records.filterMap Record.entity?).map (·.name)).Nodup)
    (hopening : startsWith signature opening = true)
    (hraws : raws.map trim = opening :: blocks.flatten) (hlines : ∀ raw ∈ raws, '\n' ∉ raw) :
    Diagram.ofText (String.ofList (raws.flatMap (· ++ ['\n']))) = .ok (recorded records) := by
  have htrim := (map_trim_lines hlines).trans hraws
  obtain ⟨raw, rest, hsplit, hraw, hrest⟩ := List.map_eq_cons_iff.1 htrim
  have hne : trim raw ≠ [] := by
    rintro h
    rw [← hraw, h] at hopening
    cases hopening
  have hsignature : expectSignature signature ⟨0, raw :: rest⟩ = .ok () ⟨1, rest⟩ := by
    rw [expectSignature, signatureFrom, if_neg hne, hraw, if_pos hopening]
  have hloop := eachLine_written hrecords [] hids hnames hrest 1
  have hread : readDiagram ⟨0, raw :: rest⟩ = .ok (recorded records) ⟨1 + rest.length, []⟩ :=
    (bind_of_ok hsignature _).trans hloop
  rw [Diagram.ofText, LineCursor.ofText, String.toList_ofList, hsplit, hread]

/-- A keyed attribute of an entity, with a legend beside them. -/
def sketch : List Line :=
  ["EDGE Diagram File 2", "Version 4",
    "Figure 1", "\x7b", "  Style \"Entity\"", "  Text \"STUDENT\\f1\"", "\x7d",
    "Figure 1", "\x7b", " Style \"Label\"", "\x7d", "",
    "Figure 2", "\x7b", "  Font 8", "  Style \"Attribute\"  ", "  Text \"Student \"ID\"\"",
    "  TypeUnderline", "\x7d",
    "Connector 3", "\x7b", "  Figure1 2", "  Figure2 1", "  EndPoint1 \"0,0\"", "  End1 \"None\"",
    "  End2 \"many\"", "  Color 0", "\x7d"].map String.toList

theorem sketch_read : Diagram.ofText (String.ofList (sketch.flatMap (· ++ ['\n']))) =
    .ok { entities := [⟨1, "STUDENT"⟩]
          attributes := [⟨2, "Student\"ID\"", true⟩]
          connectors := [⟨3, 2, 1, "None", "many"⟩] } := by
  have hversion : Written .nothing ["Version 4".toList] := .line rfl rfl
  have hstudent := @Written.figure .ofEntity 1 "STUDENT" [['{']] [] "Entity".toList
    "STUDENT\\f1".toList (by decide) (by decide) (by decide) (by decide) (by decide) (by decide)
  have hlegend := @Written.otherStyle 1 [['{']] [] "Label".toList (by decide) (by decide)
    (by decide) (by decide) (by decide) (by decide)
  have hblank : Written .nothing [[]] := .line rfl rfl
  have hkey := @Written.figure .ofAttribute 2 "Student\"ID\"" [['{'], "Font 8".toList]
    ["TypeUnderline".toList] "Attribute".toList "Student \"ID\"".toList (by decide) (by decide)
    (by decide) (by decide) (by decide) (by decide)
  have howner := @Written.connector ⟨3, 2, 1, "None", "many"⟩ [['{']] []
    ["EndPoint1 \"0,0\"".toList] [] ["Color 0".toList] (by decide) (by decide) (by decide)
    (by decide) (by decide) (by decide) (by decide) (by decide)
  have hopening : startsWith signature "EDGE Diagram File 2".toList = true := by decide
  have hrecords := List.Forall₂.cons hversion (.cons hstudent (.cons hlegend (.cons hblank
    (.cons hkey (.cons howner .nil)))))
  exact Diagram.ofText_written hrecords (by decide) (by decide) hopening (by decide) (by decide)

end Schemata.Edge
