import Schemata.Format.Importer
import Mathlib.Data.List.Induction

/-!
# What an importer shows

An importer shows what its last run led to. This depends on the source that was chosen when it ran
and on nothing that came of earlier runs.
-/
namespace Schemata

/-- What a format makes of a source, given what reading a file leads to. -/
def InputFormat.parsed (f : InputFormat) (readFile : String → Except FileFault String) :
    Option Source → Except ParseError Schema
  | none => .error .noSource
  | some (.text content) => (f.read content).outcome
  | some (.file path) =>
    match readFile path with
    | .ok content => (f.read content).outcome
    | .error _ => .error .unreadable

namespace Importer
variable {f : InputFormat}

/-- What is done with an importer. -/
inductive Call
  | select (source : Source)
  /-- Given what reading a file leads to at this time. -/
  | run (readFile : String → Except FileFault String)

def after (i : Importer) : Call → Importer
  | .select source => i.select source
  | .run readFile => (i.run readFile).2

/-- An importer for a format after calls. -/
def ofCalls (f : InputFormat) (calls : List Call) : Importer := calls.foldl after { format := f }

theorem ofCalls_append (calls later : List Call) :
    ofCalls f (calls ++ later) = later.foldl after (ofCalls f calls) := List.foldl_append ..

/-- The source that a call chooses. -/
def Call.source? : Call → Option Source
  | .select source => some source
  | .run _ => none

/-- The source that calls have chosen last. -/
def lastSource? (calls : List Call) : Option Source := (calls.filterMap Call.source?).getLast?

/-- No call runs the importer. -/
def Unread (calls : List Call) : Prop := ∀ readFile, .run readFile ∉ calls

/-! ### Steps -/

theorem format_after (i : Importer) (call : Call) : (i.after call).format = i.format := by
  cases call <;> rfl

theorem source_after (i : Importer) (call : Call) :
    (i.after call).source = call.source?.or i.source := by
  cases call <;> rfl

/-- A run keeps what it reports. -/
theorem outcome_run (i : Importer) (readFile : String → Except FileFault String) :
    (i.run readFile).2.outcome = some (i.run readFile).1.outcome := rfl

theorem outcome_select (i : Importer) (source : Source) :
    (i.select source).outcome = i.outcome := rfl

theorem outcome_load (i : Importer) (readFile : String → Except FileFault String) :
    (i.load readFile).outcome = i.format.parsed readFile i.source := by
  obtain ⟨format, source, last⟩ := i
  cases source with
  | none => rfl
  | some source =>
    cases source with
    | text content => rfl
    | file path =>
      change ((Source.load readFile (.file path)).bind format.read).outcome =
        format.parsed readFile (some (.file path))
      cases hread : readFile path with
      | ok content =>
        simp only [Source.load, InputFormat.parsed, hread]
        rfl
      | error fault =>
        simp only [Source.load, InputFormat.parsed, hread]
        rfl

/-! ### Whole runs -/

theorem format_ofCalls (calls : List Call) : (ofCalls f calls).format = f := by
  induction calls using List.reverseRecOn with
  | nil => rfl
  | append_singleton calls call ih => rw [ofCalls_append, List.foldl_cons, List.foldl_nil,
      format_after, ih]

theorem source_ofCalls (calls : List Call) : (ofCalls f calls).source = lastSource? calls := by
  induction calls using List.reverseRecOn with
  | nil => rfl
  | append_singleton calls call ih =>
    rw [ofCalls_append, List.foldl_cons, List.foldl_nil, source_after, ih, lastSource?, lastSource?,
      List.filterMap_append, List.getLast?_append]
    cases call <;> rfl

/-- What is reported depends on the source that has been chosen, not on earlier outcomes. -/
theorem outcome_run_ofCalls (calls : List Call) (readFile : String → Except FileFault String) :
    ((ofCalls f calls).run readFile).1.outcome = f.parsed readFile (lastSource? calls) := by
  have hload := outcome_load (ofCalls f calls) readFile
  rwa [format_ofCalls, source_ofCalls] at hload

/-- As long as nothing is run, the outcome stays. -/
theorem outcome_foldl_of_unread {later : List Call} (h : Unread later) (i : Importer) :
    (later.foldl after i).outcome = i.outcome := by
  induction later generalizing i with
  | nil => rfl
  | cons call later ih =>
    have hlater : Unread later := fun readFile hrun => h readFile (List.mem_cons_of_mem call hrun)
    rw [List.foldl_cons, ih hlater]
    cases call with
    | select source => exact outcome_select i source
    | run readFile => exact absurd List.mem_cons_self (h readFile)

/-- An importer shows an outcome: the schema or the message of the error. -/
structure Shows (i : Importer) (outcome : Except ParseError Schema) : Prop where
  schema : ∀ s, i.schema? = some s ↔ outcome = .ok s
  message : ∀ m, i.errorMessage? = some m ↔ ∃ e, outcome = .error e ∧ e.message = m

theorem shows_of_outcome {i : Importer} {outcome : Except ParseError Schema}
    (h : i.outcome = some outcome) : i.Shows outcome := by
  cases outcome with
  | ok s => constructor <;> simp [schema?, errorMessage?, h]
  | error e => constructor <;> simp [schema?, errorMessage?, h]

/-- An importer shows what its calls have led to. -/
structure Reflects (f : InputFormat) (calls : List Call) : Prop where
  idle : Unread calls → (ofCalls f calls).schema? = none ∧ (ofCalls f calls).errorMessage? = none
  /-- The last run reports what the format makes of the source chosen before it, and this is what
  is shown ever since. -/
  last : ∀ before readFile later, calls = before ++ .run readFile :: later → Unread later →
    ((ofCalls f before).run readFile).1.outcome = f.parsed readFile (lastSource? before) ∧
    (ofCalls f calls).Shows (f.parsed readFile (lastSource? before))
  kept : ∀ source, (ofCalls f (calls ++ [.select source])).schema? = (ofCalls f calls).schema? ∧
    (ofCalls f (calls ++ [.select source])).errorMessage? = (ofCalls f calls).errorMessage?
  givenUp : (ofCalls f calls).intoSchema? = (ofCalls f calls).schema?

/-- After any calls an importer reflects just the last run. -/
theorem reflects_ofCalls (f : InputFormat) (calls : List Call) : Reflects f calls where
  idle hunread := by
    have hnone : (ofCalls f calls).outcome = none := outcome_foldl_of_unread hunread _
    rw [schema?, errorMessage?, hnone]
    exact ⟨rfl, rfl⟩
  last before readFile later hcalls hunread := by
    have hreported := outcome_run_ofCalls (f := f) before readFile
    refine ⟨hreported, shows_of_outcome ?_⟩
    rw [hcalls, ofCalls_append, List.foldl_cons, outcome_foldl_of_unread hunread]
    exact (outcome_run ..).trans (congrArg some hreported)
  kept source := by
    rw [ofCalls_append]
    exact ⟨rfl, rfl⟩
  givenUp := rfl

end Importer
end Schemata
