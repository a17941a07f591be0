import Schemata.Proofs.CommandLine.Run

/-!
# Files and texts are converted alike

A file that is converted from the command line, without an output path, comes to what its text comes
to when it is converted in memory. The result is printed, or else the reason why there is none is
said in the same words.
-/
namespace Schemata

/-- Read in this state, the file at the path gives the text. -/
def Disk.Holds {σ : Type} (disk : Disk (StateM σ)) (path content : String) (s : σ) : Prop :=
  Leads (disk.read path) s fun answer _ => answer = .ok content

theorem Files.holds_disk {files : Files} {path content : String}
    (h : files.read path = .ok content) : Files.disk.Holds path content files := h

namespace CommandLine
variable {σ : Type} {c : Catalog} {disk : Disk (StateM σ)} {s : σ} {job : Job}
  {content source : String} {options : List Given}

theorem outcome_mapError {ε ε' α : Type} (r : Report ε α) (f : ε → ε') :
    (r.mapError f).outcome = r.outcome.mapError f := rfl

/-- How a conversion is answered that is not written to a file. -/
def answer : Except ConvertError String → Result
  | .ok output => success output
  | .error e => failure ("Conversion failed: " ++ e.message)

/-- An answer tells what the conversion came to. -/
theorem answer_eq_iff (outcome : Except ConvertError String) :
    (∀ u, (answer outcome).status = 0 ∧ (answer outcome).stdout = u ↔
      outcome.mapError ConvertError.message = .ok u) ∧
    ∀ m, (answer outcome).status = 1 ∧
        (answer outcome).stderr = "Conversion failed: " ++ m ++ "\n" ↔
      outcome.mapError ConvertError.message = .error m := by
  cases outcome with
  | ok output => simp [answer, success, Except.mapError]
  | error e =>
    have hline (m : String) : "Conversion failed: " ++ e.message ++ "\n" =
        "Conversion failed: " ++ m ++ "\n" ↔ e.message = m := by
      rw [String.append_left_inj, String.append_right_inj]
    simp [answer, failure, Except.mapError, hline]

/-! ### The steps of a job -/

theorem leads_convertFile_answer (hfile : disk.Holds job.input content s)
    (hprinted : job.output = none) (conversion : Conversion) :
    Leads (convertFile disk job conversion) s fun result _ =>
      result = answer (conversion.run (fun _ => .error .notFound) (.text content)
        job.database).outcome := by
  apply hfile.bind
  rintro _ s' rfl
  -- read from the file or given in memory, it is the same text
  have hcontent : (conversion.run (fun _ => .error .notFound) (.text content)
      job.database).outcome =
      (conversion.run (fun _ => .ok content) (.file job.input) job.database).outcome := rfl
  rw [hcontent]
  cases (conversion.run (fun _ => .ok content) (.file job.input) job.database).outcome with
  | error e => exact .pure rfl
  | ok output =>
    unfold deliver
    rw [hprinted]
    exact .pure rfl

theorem leads_runJob_answer (hfile : disk.Holds job.input content s)
    (hprinted : job.output = none) (hsource : job.sourceFormat? c = some source) :
    Leads (runJob c disk job) s fun result _ =>
      result = answer (c.convert content source job.target job.database).outcome := by
  rw [runJob, hsource, isBlocked, hprinted, Catalog.convert]
  apply Leads.bind (P := fun blocked s' => blocked = none ∧ s' = s) (.pure ⟨rfl, rfl⟩)
  rintro _ _ ⟨rfl, rfl⟩
  dsimp only
  cases c.conversion source job.target with
  | error e => exact .pure rfl
  | ok conversion => exact leads_convertFile_answer hfile hprinted conversion

/-! ### Runs -/

theorem lastValue?_eq_none {choice : Choice} (h : ∀ value, .choice choice value ∉ options) :
    lastValue? choice options = none := by
  rw [lastValue?, List.getLast?_eq_none_iff, List.filterMap_eq_nil_iff]
  rintro (⟨other, value⟩ | _) hgiven
  · apply if_neg
    rintro rfl
    exact h value hgiven
  · rfl

/-- The answer is that of the conversion with the values in effect. -/
theorem leads_run_answer {input : String} {rest : List String} (program : String)
    (hinput : input ≠ "--list") (hspells : Spells rest options)
    (hprinted : ∀ path, .choice .output path ∉ options) (hfile : disk.Holds input content s)
    (hsource : (lastValue? .source options).or
      ((c.inputForPath? input).map (·.extension)) = some source) :
    Leads (run c disk program (input :: rest)) s fun result _ =>
      result = answer (c.convert content source ((lastValue? .target options).getD "sql")
        (lastValue? .database options)).outcome := by
  have hrequest : Request.ofArguments (input :: rest) = .convert (jobOf input options) :=
    ofArguments_eq_convert.2 ⟨input, rest, options, rfl, hinput, hspells, rfl⟩
  rw [run, hrequest]
  exact leads_runJob_answer hfile (lastValue?_eq_none hprinted) hsource

/-- A file converted with any options but an output path: the run succeeds and prints what the
text of the file is converted to, or fails and says why it cannot be. The values in effect are the
last ones given; without any, the input format is told by the path, the output format is SQL and
there is no database. -/
theorem leads_run_convertDiagram {input text : String} {rest : List String} (program : String)
    (hinput : input ≠ "--list") (hspells : Spells rest options)
    (hprinted : ∀ path, .choice .output path ∉ options) (hfile : disk.Holds input text s)
    {document : Xml.DocumentReader} (hsource : (lastValue? .source options).or
      (((Catalog.standardWith document).inputForPath? input).map (·.extension)) = some source) :
    Leads (run (.standardWith document) disk program (input :: rest)) s fun result _ =>
      (∀ u, result.status = 0 ∧ result.stdout = u ↔
        (convertDiagramWith document text source ((lastValue? .target options).getD "sql")
          (lastValue? .database options)).outcome = .ok u) ∧
      ∀ m, result.status = 1 ∧ result.stderr = "Conversion failed: " ++ m ++ "\n" ↔
        (convertDiagramWith document text source ((lastValue? .target options).getD "sql")
          (lastValue? .database options)).outcome = .error m := by
  apply (leads_run_answer program hinput hspells hprinted hfile hsource).mono
  intro result _ hresult
  rw [hresult, convertDiagramWith, outcome_mapError]
  exact answer_eq_iff _

/-- A save file without tables. -/
def blankText : String := "EdgeConvert Save File\n#Tables#\n#Fields#\n"

theorem blankText_printed :
    (convertDiagram blankText "sav" "SAV" (some "x")).outcome = .ok blankText ∧
    Leads (run .standard Files.disk "erd"
        ["a.sav", "--to", "xml", "--force", "-d", "x", "-t", "SAV"]) blankSave
      fun result _ => result.status = 0 ∧ result.stdout = blankText := by
  have hconverted : (convertDiagram blankText "sav" "SAV" (some "x")).outcome = .ok blankText :=
    eq_ok_of_toOption (by decide +kernel)
  have hoptions : Spells ["--to", "xml", "--force", "-d", "x", "-t", "SAV"]
      [.choice .target "xml", .force, .choice .database "x", .choice .target "SAV"] :=
    .choice "xml" rfl (.force (.choice "x" rfl (.choice "SAV" rfl .nil)))
  have hfile : Files.disk.Holds "a.sav" blankText blankSave := Files.holds_disk (by rfl)
  have hsource : (lastValue? .source [.choice .target "xml", .force, .choice .database "x",
      .choice .target "SAV"]).or
      ((Catalog.standard.inputForPath? "a.sav").map (·.extension)) = some "sav" := by decide +kernel
  refine ⟨hconverted, ?_⟩
  apply (leads_run_convertDiagram "erd" (by decide) hoptions (by simp) hfile hsource).mono
  intro result _ h
  exact (h.1 blankText).2 hconverted

end CommandLine
end Schemata
