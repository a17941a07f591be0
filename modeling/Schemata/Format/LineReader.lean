import Schemata.Format.ParseError
import Schemata.Text.Number
import Schemata.Text.Split

/-!
# Reading line by line

A reader takes lines from the front of what is left of a text and keeps count of them, also when it
fails. It never goes back: wherever it stops, it has dropped some number of lines and counted just
these. So a loop over a reader ends.
-/
namespace Schemata
open Text

structure LineCursor where
  /-- How many lines have been read, which is the number of the line read last. -/
  number : Nat := 0
  rest : List Line
deriving DecidableEq, Repr

def LineCursor.ofText (text : String) : LineCursor := ⟨0, lines text.toList⟩

/-- The cursor that many lines further on. -/
def LineCursor.drop (c : LineCursor) (n : Nat) : LineCursor := ⟨c.number + n, c.rest.drop n⟩

abbrev LineReader := EStateM ParseError LineCursor

/-- The line that ends a block. -/
def blockEnd : Line := ['}']

def startsWith (keyword : String) (line : Line) : Bool := keyword.toList.isPrefixOf line

namespace LineReader
variable {α β σ : Type}

/-- Where a reader stopped. -/
def stop : EStateM.Result ParseError LineCursor α → LineCursor
  | .ok _ c => c
  | .error _ c => c

/-- Wherever the reader stops, it has read a number of lines that were left. -/
def Forward (r : LineReader α) : Prop := ∀ c, ∃ n ≤ c.rest.length, stop (r c) = c.drop n

theorem forward_pure (a : α) : Forward (pure a) := fun _ => ⟨0, Nat.zero_le _, rfl⟩

theorem forward_throw (e : ParseError) : Forward (throw e : LineReader α) :=
  fun _ => ⟨0, Nat.zero_le _, rfl⟩

theorem forward_get : Forward (get : LineReader LineCursor) := fun _ => ⟨0, Nat.zero_le _, rfl⟩

theorem Forward.bind {r : LineReader α} {next : α → LineReader β} (hr : Forward r)
    (hnext : ∀ a, Forward (next a)) : Forward (r >>= next) := by
  intro c
  obtain ⟨n, hn, h⟩ := hr c
  change ∃ n ≤ c.rest.length, stop (EStateM.bind r next c) = c.drop n
  unfold EStateM.bind
  cases hc : r c with
  | error e c' =>
    rw [hc] at h
    exact ⟨n, hn, h⟩
  | ok a c' =>
    rw [hc] at h
    obtain ⟨m, hm, h'⟩ := hnext a c'
    change c' = _ at h
    subst h
    simp only [LineCursor.drop, List.length_drop] at hm
    exact ⟨n + m, by omega, h'.trans (by simp [LineCursor.drop, Nat.add_assoc])⟩

theorem Forward.rest_length_le {r : LineReader α} (h : Forward r) {c c' : LineCursor} {a : α}
    (hr : r c = .ok a c') : c'.rest.length ≤ c.rest.length := by
  obtain ⟨n, -, hn⟩ := h c
  rw [hr] at hn
  simp [show c' = c.drop n from hn, LineCursor.drop]

/-! ### Single lines -/

/-- The next line as it stands, if there is one. -/
def nextRaw? : LineReader (Option Line) := fun c =>
  match c.rest with
  | [] => .ok none c
  | line :: rest => .ok (some line) ⟨c.number + 1, rest⟩

theorem forward_nextRaw? : Forward nextRaw? := by
  intro c
  rcases c with ⟨number, _ | ⟨line, rest⟩⟩
  · exact ⟨0, Nat.zero_le _, rfl⟩
  · exact ⟨1, by simp, rfl⟩

/-- The next line without blanks at its ends, if there is one. -/
def next? : LineReader (Option Line) := do
  return (← nextRaw?).map trim

theorem forward_next? : Forward next? := forward_nextRaw?.bind fun _ => forward_pure _

/-- The next line, which must be there because the part has not ended yet. -/
def next (part : Part) : LineReader Line := do
  match ← next? with
  | some line => return line
  | none => throw (.unexpectedEnd part)

theorem forward_next (part : Part) : Forward (next part) :=
  forward_next?.bind fun
    | some _ => forward_pure _
    | none => forward_throw _

/-- Refuses the line read last. -/
def refuse (fault : LineFault) : LineReader α := do
  throw (.malformed (← get).number fault)

theorem forward_refuse (fault : LineFault) : Forward (refuse fault : LineReader α) :=
  forward_get.bind fun _ => forward_throw _

/-- The number after the label of a line. -/
def labelledId (line : Line) : LineReader Nat :=
  match readWord? (afterLabel line) with
  | some id => pure id
  | none => refuse (.noId (String.ofList (afterLabel line)))

theorem forward_labelledId (line : Line) : Forward (labelledId line) := by
  unfold labelledId
  split
  · exact forward_pure _
  · exact forward_refuse _

def quoted (line : Line) : LineReader Line :=
  match quoted? line with
  | some inner => pure inner
  | none => refuse (.notQuoted (String.ofList line))

theorem forward_quoted (line : Line) : Forward (quoted line) := by
  unfold quoted
  split
  · exact forward_pure _
  · exact forward_refuse _

/-! ### Runs of lines -/

/-- Goes over empty lines; the first other line must begin with the signature of the format. -/
def signatureFrom (signature : String) (number : Nat) :
    List Line → EStateM.Result ParseError LineCursor Unit
  | [] => .error (.wrongFileType signature) ⟨number, []⟩
  | raw :: rest =>
    if trim raw = [] then signatureFrom signature (number + 1) rest
    else if startsWith signature (trim raw) then .ok () ⟨number + 1, rest⟩
    else .error (.wrongFileType signature) ⟨number + 1, rest⟩

def expectSignature (signature : String) : LineReader Unit := fun c =>
  signatureFrom signature c.number c.rest

def findFrom (keyword : String) (part : Part) (number : Nat) :
    List Line → EStateM.Result ParseError LineCursor (Option Line)
  | [] => .error (.unexpectedEnd part) ⟨number, []⟩
  | raw :: rest =>
    if startsWith keyword (trim raw) then .ok (some (trim raw)) ⟨number + 1, rest⟩
    else if trim raw = blockEnd then .ok none ⟨number + 1, rest⟩
    else findFrom keyword part (number + 1) rest

/-- The next line of the current block that begins with a keyword; without one, the whole block is
read. -/
def findInBlock? (keyword : String) (part : Part) : LineReader (Option Line) := fun c =>
  findFrom keyword part c.number c.rest

/-- The next line of the current block that begins with a keyword, which must be there. -/
def seekInBlock (keyword : String) (part : Part) : LineReader Line := do
  match ← findInBlock? keyword part with
  | some line => return line
  | none => refuse (.blockEnded part keyword)

def scanFrom (part : Part) (number : Nat) :
    List Line → EStateM.Result ParseError LineCursor (List Line)
  | [] => .error (.unexpectedEnd part) ⟨number, []⟩
  | raw :: rest =>
    if trim raw = blockEnd then .ok [] ⟨number + 1, rest⟩
    else
      match scanFrom part (number + 1) rest with
      | .ok visited c => .ok (trim raw :: visited) c
      | .error e c => .error e c

/-- The lines that are left of the current block; its end is read, too. -/
def scanBlock (part : Part) : LineReader (List Line) := fun c => scanFrom part c.number c.rest

/-- One line read and then `n` more are `n + 1` lines. -/
theorem LineCursor.drop_cons (number n : Nat) (raw : Line) (rest : List Line) :
    LineCursor.drop ⟨number, raw :: rest⟩ (n + 1) = LineCursor.drop ⟨number + 1, rest⟩ n := by
  simp [LineCursor.drop, Nat.add_assoc, Nat.add_comm 1 n]

theorem stop_findFrom (keyword : String) (part : Part) (number : Nat) (rest : List Line) :
    ∃ n ≤ rest.length, stop (findFrom keyword part number rest) =
      LineCursor.drop ⟨number, rest⟩ n := by
  induction rest generalizing number with
  | nil => exact ⟨0, Nat.zero_le _, rfl⟩
  | cons raw rest ih =>
    unfold findFrom
    split
    · exact ⟨1, Nat.succ_le_succ (Nat.zero_le _), rfl⟩
    · split
      · exact ⟨1, Nat.succ_le_succ (Nat.zero_le _), rfl⟩
      · obtain ⟨n, hn, h⟩ := ih (number + 1)
        exact ⟨n + 1, Nat.succ_le_succ hn, by rw [h, LineCursor.drop_cons]⟩

theorem forward_findInBlock? (keyword : String) (part : Part) :
    Forward (findInBlock? keyword part) := fun c => stop_findFrom keyword part c.number c.rest

theorem forward_seekInBlock (keyword : String) (part : Part) :
    Forward (seekInBlock keyword part) :=
  (forward_findInBlock? keyword part).bind fun
    | some _ => forward_pure _
    | none => forward_refuse _

theorem stop_scanFrom (part : Part) (number : Nat) (rest : List Line) :
    ∃ n ≤ rest.length, stop (scanFrom part number rest) = LineCursor.drop ⟨number, rest⟩ n := by
  induction rest generalizing number with
  | nil => exact ⟨0, Nat.zero_le _, rfl⟩
  | cons raw rest ih =>
    unfold scanFrom
    split
    · exact ⟨1, Nat.succ_le_succ (Nat.zero_le _), rfl⟩
    · obtain ⟨n, hn, h⟩ := ih (number + 1)
      refine ⟨n + 1, Nat.succ_le_succ hn, ?_⟩
      rw [LineCursor.drop_cons, ← h]
      cases scanFrom part (number + 1) rest <;> rfl

theorem forward_scanBlock (part : Part) : Forward (scanBlock part) :=
  fun c => stop_scanFrom part c.number c.rest

/-! ### Loops -/

/-- Gives each line to a step together with what has been gathered, until the step says that it is
done or no line is left. -/
def eachLine (step : σ → Line → LineReader (σ × Bool)) (hstep : ∀ s line, Forward (step s line))
    (gathered : σ) (c : LineCursor) : EStateM.Result ParseError LineCursor σ :=
  match hc : c.rest with
  | [] => .ok gathered c
  | raw :: rest =>
    match hr : step gathered (trim raw) ⟨c.number + 1, rest⟩ with
    | .error e c' => .error e c'
    | .ok (gathered', false) c' => .ok gathered' c'
    | .ok (gathered', true) c' =>
      have : c'.rest.length < c.rest.length := by
        rw [hc]
        exact Nat.lt_succ_of_le ((hstep gathered (trim raw)).rest_length_le hr)
      eachLine step hstep gathered' c'
termination_by c.rest.length

end LineReader
end Schemata
