import Schemata.Text.Blank

/-!
# Pieces of a text

The lines of a text, and in a line cutting at a delimiter, the value after a label, and the value
between quotation marks. A line ends at a line feed; one carriage return right before the line feed
goes with it. Text after the last line feed is a line of its own, taken as it stands, unless it is
empty.
-/
namespace Schemata.Text

abbrev Line := List Char

/-- Leaves out one carriage return at the head of a line that is held back to front. -/
def dropReturn : List Char → List Char
  | '\r' :: rest => rest
  | line => line

/-- The lines of a text whose current line has begun with `before`, back to front. -/
def linesAfter (before : List Char) : List Char → List Line
  | [] => if before = [] then [] else [before.reverse]
  | c :: rest =>
    if c = '\n' then (dropReturn before).reverse :: linesAfter [] rest
    else linesAfter (c :: before) rest

def lines (text : List Char) : List Line := linesAfter [] text

theorem linesAfter_append (before line rest : List Char) (h : '\n' ∉ line) :
    linesAfter before (line ++ '\n' :: rest) =
      (dropReturn (line.reverse ++ before)).reverse :: lines rest := by
  induction line generalizing before with
  | nil => simp [linesAfter, lines]
  | cons c line ih =>
    have hc : c ≠ '\n' := fun e => h (by simp [e])
    simp [linesAfter, hc, ih (c :: before) (fun hm => h (List.mem_cons_of_mem _ hm))]

/-! ### Delimiters -/

/-- Cuts at the first `d`: what stands before it, and what stands after it if there is one. -/
def cut (d : Char) (s : List Char) : List Char × Option (List Char) :=
  match s.dropWhile (· != d) with
  | [] => (s, none)
  | _ :: rest => (s.takeWhile (· != d), some rest)

theorem cut_append {d : Char} {s : List Char} (rest : List Char) (h : d ∉ s) :
    cut d (s ++ d :: rest) = (s, some rest) := by
  have hs : ∀ c ∈ s, (c != d) = true := fun c hc => by
    simpa using fun e : c = d => h (e ▸ hc)
  unfold cut
  rw [List.dropWhile_append_of_pos hs, List.takeWhile_append_of_pos hs]
  simp

theorem cut_of_not_mem {d : Char} {s : List Char} (h : d ∉ s) : cut d s = (s, none) := by
  have hs : s.dropWhile (· != d) = [] := by
    induction s with
    | nil => rfl
    | cons c s ih =>
      have hc : c ≠ d := fun e => h (by simp [e])
      simpa [List.dropWhile_cons, hc] using ih fun hm => h (List.mem_cons_of_mem _ hm)
  simp [cut, hs]

theorem length_lt_of_cut {d : Char} {s before after : List Char}
    (h : cut d s = (before, some after)) : after.length < s.length := by
  unfold cut at h
  split at h
  · simp at h
  · rename_i heq
    have hl := congrArg List.length heq
    have := (List.dropWhile_sublist (fun c => c != d) : (s.dropWhile (· != d)).Sublist s).length_le
    simp only [Prod.mk.injEq, Option.some.injEq] at h
    rw [← h.2]
    simp only [List.length_cons] at hl
    omega

/-- Cuts at the first `n` places where `d` stands; the last piece is the rest as it is. -/
def splitFirst (d : Char) : Nat → List Char → List (List Char)
  | 0, s => [s]
  | n + 1, s =>
    match cut d s with
    | (piece, none) => [piece]
    | (piece, some rest) => piece :: splitFirst d n rest

/-- The pieces between delimiters that are not empty. -/
def tokens (d : Char) (s : List Char) : List (List Char) :=
  (s.splitOn d).filter (· != [])

/-- Does the word stand anywhere in the text? -/
def occurs (word : List Char) : List Char → Bool
  | [] => word.isEmpty
  | c :: s => word.isPrefixOf (c :: s) || occurs word s

/-- The text after the first space, without blanks around it; empty if there is no space. -/
def afterLabel (line : List Char) : List Char :=
  match (cut ' ' line).2 with
  | some rest => trim rest
  | none => []

/-- The text between the first and the last quotation mark of a line that has two of them. -/
def quoted? (line : List Char) : Option (List Char) := do
  let rest ← (cut '"' line).2
  let inner ← (cut '"' rest.reverse).2
  return inner.reverse

end Schemata.Text
