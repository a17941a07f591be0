import Schemata.Format.LineReader
import Schemata.Format.Report
import Schemata.Proofs.Endings

/-!
# Foreseen faults

Reading takes a text apart before the schema is asked for anything, so the readers of lines have
only faults of the text to report. What they give has the properties that they check for.
-/
namespace Schemata
open Text

/-- A fault to be foreseen when the schema may refuse only so much: records are never lost. -/
def ParseError.Within (allowed : SchemaError → Prop) : ParseError → Prop
  | .schema e => allowed e
  | .recordLost => False
  | _ => True

section Records
variable {α : Type} {A F : SchemaError → Prop} {P : α → Prop}

theorem Ends.accepted {answer : Except SchemaError α} (h : Ends F P answer)
    (hF : ∀ e, F e → A e) : Ends (ParseError.Within A) P (accepted answer) :=
  h.mapError hF

theorem Ends.recorded {o : Option α} (h : ∃ a, o = some a ∧ P a) :
    Ends (ParseError.Within A) P (recorded o) := by
  obtain ⟨a, rfl, ha⟩ := h
  exact .ok ha

theorem Ends.report {β : Type} {F : ParseError → Prop} {Q : β → Prop} {r : Report ParseError α}
    {next : α → Report ParseError β} (h : Ends F P r.outcome)
    (hnext : ∀ a, r.outcome = .ok a → P a → Ends F Q (next a).outcome) :
    Ends F Q (r >>= next).outcome := by
  change Ends F Q (r.bind next).outcome
  unfold Report.bind
  cases hr : r.outcome with
  | error e => exact .error (h.refused hr)
  | ok a => exact hnext a hr (h.given hr)

end Records

namespace LineReader
variable {α β σ : Type} {F : ParseError → Prop} {P : α → Prop} {Q : β → Prop}

def IsForeseen (foreseen : ParseError → Prop) (P : α → Prop) :
    EStateM.Result ParseError LineCursor α → Prop
  | .ok a _ => P a
  | .error e _ => foreseen e

/-- Wherever the reader begins, it ends as foreseen. -/
def Yields (foreseen : ParseError → Prop) (P : α → Prop) (r : LineReader α) : Prop :=
  ∀ c, IsForeseen foreseen P (r c)

theorem Yields.given {r : LineReader α} (h : Yields F P r) {c c' : LineCursor} {a : α}
    (hr : r c = .ok a c') : P a := by
  have hc := h c
  rwa [hr] at hc

theorem Yields.refused {r : LineReader α} (h : Yields F P r) {c c' : LineCursor} {e : ParseError}
    (hr : r c = .error e c') : F e := by
  have hc := h c
  rwa [hr] at hc

theorem yields_pure {a : α} (h : P a) : Yields F P (pure a) := fun _ => h

theorem yields_throw {e : ParseError} (h : F e) : Yields F P (throw e : LineReader α) := fun _ => h

theorem Yields.bind {r : LineReader α} {next : α → LineReader β} (h : Yields F P r)
    (hnext : ∀ a, P a → Yields F Q (next a)) : Yields F Q (r >>= next) := by
  intro c
  change IsForeseen F Q (EStateM.bind r next c)
  unfold EStateM.bind
  cases hr : r c with
  | error e c' => exact h.refused hr
  | ok a c' => exact hnext a (h.given hr) c'

/-! ### Lines -/

section Lines
variable {A : SchemaError → Prop}

theorem yields_refuse (fault : LineFault) :
    Yields (ParseError.Within A) P (refuse fault : LineReader α) := fun _ => trivial

theorem yields_next (part : Part) :
    Yields (ParseError.Within A) (fun _ => True) (next part) := by
  rintro ⟨number, _ | ⟨raw, rest⟩⟩ <;> exact trivial

theorem yields_labelledId (line : Line) :
    Yields (ParseError.Within A) (fun _ => True) (labelledId line) := by
  unfold labelledId
  split
  · exact yields_pure trivial
  · exact yields_refuse _

theorem yields_quoted (line : Line) :
    Yields (ParseError.Within A) (fun _ => True) (quoted line) := by
  unfold quoted
  split
  · exact yields_pure trivial
  · exact yields_refuse _

theorem yields_expectSignature (signature : String) :
    Yields (ParseError.Within A) (fun _ => True) (expectSignature signature) := by
  intro c
  unfold expectSignature
  generalize c.number = number
  induction c.rest generalizing number with
  | nil => exact trivial
  | cons raw rest ih =>
    unfold signatureFrom
    split
    · exact ih (number + 1)
    · split <;> exact trivial

theorem yields_findInBlock? (keyword : String) (part : Part) :
    Yields (ParseError.Within A) (fun _ => True) (findInBlock? keyword part) := by
  intro c
  unfold findInBlock?
  generalize c.number = number
  induction c.rest generalizing number with
  | nil => exact trivial
  | cons raw rest ih =>
    unfold findFrom
    split
    · exact trivial
    · split
      · exact trivial
      · exact ih (number + 1)

theorem yields_seekInBlock (keyword : String) (part : Part) :
    Yields (ParseError.Within A) (fun _ => True) (seekInBlock keyword part) :=
  (yields_findInBlock? keyword part).bind fun
    | some _, _ => yields_pure trivial
    | none, _ => yields_refuse _

theorem yields_scanBlock (part : Part) :
    Yields (ParseError.Within A) (fun _ => True) (scanBlock part) := by
  intro c
  unfold scanBlock
  generalize c.number = number
  induction c.rest generalizing number with
  | nil => exact trivial
  | cons raw rest ih =>
    unfold scanFrom
    split
    · exact trivial
    · have hrest := ih (number + 1)
      cases hscan : scanFrom part (number + 1) rest with
      | ok visited c' => exact trivial
      | error e c' => rwa [hscan] at hrest

end Lines

/-- What every step of a loop keeps, the loop keeps. -/
theorem yields_eachLine {step : σ → Line → LineReader (σ × Bool)}
    {hstep : ∀ s line, Forward (step s line)} {P : σ → Prop}
    (h : ∀ s line, P s → Yields F (fun r => P r.1) (step s line)) {s : σ} (hs : P s) :
    Yields F P (eachLine step hstep s) := by
  intro c
  fun_induction eachLine step hstep s c with
  | case1 s c => exact hs
  | case2 s c raw rest hc e c' hr => exact (h s _ hs).refused hr
  | case3 s c raw rest hc s' c' hr => exact (h s _ hs).given hr
  | case4 s c raw rest hc s' c' hr _ ih => exact ih ((h s _ hs).given hr)

end LineReader
end Schemata
