import Schemata.Format.Basic

/-!
# Importers

An importer reads a chosen source in one format and keeps the outcome until it reads again.
-/
namespace Schemata

inductive Source
  | text (content : String)
  | file (path : String)
deriving DecidableEq, Repr

/-- The text of a source, given what reading a file leads to. -/
def Source.load (readFile : String → Except FileFault String) : Source → Report ParseError String
  | .text content => ⟨.ok content, []⟩
  | .file path =>
    match readFile path with
    | .ok content => ⟨.ok content, []⟩
    | .error fault => ⟨.error .unreadable, [.unreadableInput path fault]⟩

structure Importer where
  format : InputFormat
  source : Option Source := none
  /-- What reading led to, if there was any. -/
  outcome : Option (Except ParseError Schema) := none

namespace Importer

/-- Chooses another source; the last outcome stays. -/
def select (i : Importer) (source : Source) : Importer := { i with source := some source }

/-- What the chosen source leads to. -/
def load (i : Importer) (readFile : String → Except FileFault String) :
    Report ParseError Schema := do
  match i.source with
  | none => ⟨.error .noSource, []⟩
  | some source => i.format.read (← source.load readFile)

/-- Reads the chosen source; the outcome takes the place of any earlier one. -/
def run (i : Importer) (readFile : String → Except FileFault String) :
    Report ParseError Schema × Importer :=
  let report := i.load readFile
  (report, { i with outcome := some report.outcome })

def schema? (i : Importer) : Option Schema :=
  match i.outcome with
  | some (.ok s) => some s
  | _ => none

/-- The schema that an importer gives up when it is not needed any more. -/
def intoSchema? (i : Importer) : Option Schema :=
  match i.outcome with
  | some (.ok s) => some s
  | _ => none

def errorMessage? (i : Importer) : Option String :=
  match i.outcome with
  | some (.error e) => some e.message
  | _ => none

end Importer
end Schemata
