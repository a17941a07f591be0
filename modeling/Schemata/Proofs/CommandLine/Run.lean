import Schemata.CommandLine.Run
import Schemata.Proofs.CommandLine.Options
import Schemata.Proofs.Disk

/-!
# What a run does to files

A run changes no file before its output is there, and then only at the output path. A run that fails
leaves all files as they were and prints nothing.
-/
namespace Schemata.CommandLine
variable {σ File : Type} {c : Catalog} {disk : Disk (StateM σ)} {see : σ → Snapshot File} {job : Job}
  {before after : Snapshot File} {output : String}

/-! ### Results -/

/-- How a run ends: it fails and has done nothing, or it succeeds and has done what it should. -/
inductive Finishes (before : Snapshot File) (P : Snapshot File → String → Prop) :
    Result → Snapshot File → Prop
  | failed {result : Result} (hstatus : result.status = 1) (hstdout : result.stdout = "") :
    Finishes before P result before
  | succeeded {result : Result} {after : Snapshot File} (hstatus : result.status = 0)
    (hdone : P after result.stdout) : Finishes before P result after

section Finishes
variable {P P' : Snapshot File → String → Prop} {result : Result}

theorem Finishes.mono (h : Finishes before P result after)
    (hP : ∀ after stdout, P after stdout → P' after stdout) : Finishes before P' result after := by
  cases h with
  | failed hstatus hstdout => exact .failed hstatus hstdout
  | succeeded hstatus hdone => exact .succeeded hstatus (hP _ _ hdone)

theorem Finishes.done (h : Finishes before P result after) (hstatus : result.status = 0) :
    P after result.stdout := by
  cases h with
  | failed hfailed => exact absurd (hfailed.symm.trans hstatus) (by decide)
  | succeeded _ hdone => exact hdone

end Finishes

/-- The text of the input file, converted as the job says, gives the output. -/
def Converts (c : Catalog) (before : Snapshot File) (job : Job) (output : String) : Prop :=
  ∃ content source, before.Holds job.input content ∧ job.sourceFormat? c = some source ∧
    (c.convert content source job.target job.database).outcome = .ok output

/-- The output is where the job wants it: printed, or else in the file to which the output path leads,
and no other file has changed. -/
inductive Delivered (job : Job) (before : Snapshot File) (output : String) :
    Snapshot File → String → Prop
  | printed (hpath : job.output = none) : Delivered job before output before output
  | written {path : String} {file : File} {after : Snapshot File} (hpath : job.output = some path)
    (hfree : before.resolve? path = none ∨ job.force = true)
    (hstores : before.Stores path output after file) : Delivered job before output after ""

/-! ### The steps of a job -/

/-- Nothing stands at the output path that must stay. -/
def IsFree (job : Job) (before : Snapshot File) : Prop :=
  ∀ path, job.output = some path → before.resolve? path = none ∨ job.force = true

theorem leads_isBlocked (hdisk : disk.Shows see) (job : Job) (s : σ) :
    Leads (isBlocked disk job) s fun blocked s' =>
      (blocked = none → IsFree job (see s)) ∧ see s' = see s := by
  unfold isBlocked
  cases hpath : job.output with
  | none => exact .pure ⟨fun _ _ h => by simp [hpath] at h, rfl⟩
  | some path =>
    apply (hdisk.hasPath path s).bind
    rintro _ s' ⟨rfl, hs'⟩
    refine .pure ⟨fun hblocked path' hpath' => ?_, hs'⟩
    cases hpath.symm.trans hpath'
    cases hfound : (see s).resolve? path with
    | none => exact .inl rfl
    | some file => simpa [hfound] using hblocked

theorem leads_deliver (hdisk : disk.Shows see) (output : String) (s : σ)
    (hfree : IsFree job (see s)) : Leads (deliver disk job output) s fun result s' =>
      Finishes (see s) (Delivered job (see s) output) result (see s') := by
  unfold deliver
  cases hpath : job.output with
  | none => exact .pure (.succeeded rfl (.printed hpath))
  | some path =>
    apply (hdisk.write path output s).bind
    rintro (fault | _) s' hwrite
    · exact .pure (hwrite ▸ .failed rfl rfl)
    · obtain ⟨file, hstores⟩ := hwrite
      exact .pure (.succeeded rfl (.written hpath (hfree path hpath) hstores))

theorem exists_content {conversion : Conversion} {answer : Except FileFault String} {path : String}
    {database : Option String}
    (h : (conversion.run (fun _ => answer) (.file path) database).outcome = .ok output) :
    ∃ content, answer = .ok content ∧ ∀ readFile,
      (conversion.run readFile (.text content) database).outcome = .ok output := by
  cases answer with
  | error fault => cases h
  | ok content => exact ⟨content, rfl, fun _ => h⟩

theorem leads_convertFile (hdisk : disk.Shows see) {source : String} {conversion : Conversion}
    (hsource : job.sourceFormat? c = some source)
    (hconversion : c.conversion source job.target = .ok conversion) (s : σ)
    (hfree : IsFree job (see s)) : Leads (convertFile disk job conversion) s fun result s' =>
      Finishes (see s) (fun after stdout => ∃ output, Converts c (see s) job output ∧
        Delivered job (see s) output after stdout) result (see s') := by
  apply (hdisk.read job.input s).bind
  rintro answer s' ⟨hread, hs'⟩
  -- reading may have changed the state, but not the files that it shows
  rw [← hs'] at hfree hread ⊢
  cases hrun : (conversion.run (fun _ => answer) (.file job.input) job.database).outcome with
  | error e => exact .pure (.failed rfl rfl)
  | ok output =>
    obtain ⟨content, rfl, hcontent⟩ := exists_content hrun
    have hconverts : Converts c (see s') job output := by
      refine ⟨content, source, hread content rfl, hsource, ?_⟩
      rw [Catalog.convert, hconversion]
      exact hcontent fun _ => .error .notFound
    apply (leads_deliver hdisk output s' hfree).mono
    intro result s'' hfinishes
    exact hfinishes.mono fun after stdout hdelivered => ⟨output, hconverts, hdelivered⟩

theorem leads_runJob (hdisk : disk.Shows see) (c : Catalog) (job : Job) (s : σ) :
    Leads (runJob c disk job) s fun result s' =>
      Finishes (see s) (fun after stdout => ∃ output, Converts c (see s) job output ∧
        Delivered job (see s) output after stdout) result (see s') := by
  unfold runJob
  cases hsource : job.sourceFormat? c with
  | none => exact .pure (.failed rfl rfl)
  | some source =>
    apply (leads_isBlocked hdisk job s).bind
    rintro (_ | path) s' ⟨hfree, hs'⟩
    · rw [← hs'] at hfree ⊢
      dsimp only
      cases hconversion : c.conversion source job.target with
      | error e => exact .pure (.failed rfl rfl)
      | ok conversion => exact leads_convertFile hdisk hsource hconversion s' (hfree rfl)
    · exact .pure (hs' ▸ .failed rfl rfl)

/-! ### Runs -/

/-- What a run that succeeds has done: it has listed the formats, or it has converted its input with
the values in effect and delivered the output. -/
inductive Done (c : Catalog) (before : Snapshot File) :
    List String → Snapshot File → String → Prop
  | listed {rest : List String} : Done c before ("--list" :: rest) before (listing c)
  | converted {input stdout output : String} {rest : List String} {options : List Given}
    {after : Snapshot File} (hinput : input ≠ "--list") (hspells : Spells rest options)
    (hconverts : Converts c before (jobOf input options) output)
    (hdelivered : Delivered (jobOf input options) before output after stdout) :
    Done c before (input :: rest) after stdout

/-- Whatever the arguments are and whatever is on the disk, a run that fails changes nothing there and
prints nothing. A run that succeeds prints its output or stores it in the file to which the output
path in effect leads, where nothing was before unless `--force` is among the options, and changes no
other file. -/
theorem leads_run (hdisk : disk.Shows see) (c : Catalog) (program : String)
    (arguments : List String) (s : σ) : Leads (run c disk program arguments) s fun result s' =>
      Finishes (see s) (Done c (see s) arguments) result (see s') := by
  unfold run
  cases hrequest : Request.ofArguments arguments with
  | usage | unknownOption => exact .pure (.failed rfl rfl)
  | list =>
    obtain ⟨rest, rfl⟩ := ofArguments_eq_list.1 hrequest
    exact .pure (.succeeded rfl .listed)
  | convert job =>
    obtain ⟨input, rest, options, rfl, hinput, hspells, rfl⟩ := ofArguments_eq_convert.1 hrequest
    apply (leads_runJob hdisk c _ s).mono
    intro result s' hfinishes
    apply hfinishes.mono
    rintro after stdout ⟨output, hconverts, hdelivered⟩
    exact .converted hinput hspells hconverts hdelivered

/-- A save file without tables in the working directory. -/
def blankSave : Files where
  entries := [(.inside ["a.sav"], .text "EdgeConvert Save File\n#Tables#\n#Fields#\n")]

/-- The same with a copy of the file. -/
def copiedSave : Files where
  entries := (.inside ["b.sav"], .text "EdgeConvert Save File\n#Tables#\n#Fields#\n") ::
    blankSave.entries

theorem blankSave_copied :
    (run .standard Files.disk "erd" ["/home/a.sav", "-t", "sav", "-o", "../home/b.sav"]).run blankSave =
      (success "", copiedSave) ∧
    Done .standard blankSave.snapshot ["/home/a.sav", "-t", "sav", "-o", "../home/b.sav"]
      copiedSave.snapshot "" := by
  have hrun : (run .standard Files.disk "erd"
      ["/home/a.sav", "-t", "sav", "-o", "../home/b.sav"]).run blankSave = (success "", copiedSave) :=
    Prod.ext (by decide +kernel) (by decide +kernel)
  have hfinishes := leads_run Files.shows_disk .standard "erd"
    ["/home/a.sav", "-t", "sav", "-o", "../home/b.sav"] blankSave
  rw [Leads, hrun] at hfinishes
  exact ⟨hrun, hfinishes.done rfl⟩

end Schemata.CommandLine
