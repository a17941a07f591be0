import Schemata.Proofs.Format.Locality

/-!
# Where blocks end

A scan of a block and a search in it stop at the first line that ends the block, or at the end of the
text if there is none; a search stops earlier where it has found what it looks for. Both leave off
right behind the line at which they stop. So rows of calls hand out each line at most once, and in
the order of the text.
-/
namespace Schemata.LineReader
open Text
variable {α : Type} {part : Part} {keyword : String} {c c' : LineCursor} {read : List Line}

/-! ### The first line of a kind -/

theorem Reads.of_taken {r : LineReader α} {ls : List Line} {a : α} (h : Reads r ls a)
    (ht : Taken c c' read) (hread : read.map trim = ls) : r c = .ok a c' := by
  have hr := h c.number read c'.rest hread
  rwa [← ht.rest, ← ht.number] at hr

/-- A text that is left has no line of a kind, or it has a first one. -/
theorem exists_first (P : Line → Prop) [DecidablePred P] (c : LineCursor) :
    (∀ l ∈ c.rest.map trim, ¬P l) ∨ ∃ c' read before l, Taken c c' read ∧
      read.map trim = before ++ [l] ∧ (∀ b ∈ before, ¬P b) ∧ P l := by
  cases hfind : (c.rest.map trim).find? (P ·) with
  | none => exact .inl fun l hl => by simpa using List.find?_eq_none.1 hfind l hl
  | some l =>
    obtain ⟨hl, before, after, hsplit, hbefore⟩ := List.find?_eq_some_iff_append.1 hfind
    obtain ⟨raws, rest, hrest, hraws, hafter⟩ := List.map_eq_append_iff.1 hsplit
    obtain ⟨raw, rest, rfl, rfl, -⟩ := List.map_eq_cons_iff.1 hafter
    refine .inr ⟨⟨c.number + (raws.length + 1), rest⟩, raws ++ [raw], before, trim raw,
      ⟨by simp [hrest], by simp⟩, by simp [hraws], fun b hb => by simpa using hbefore b hb, ?_⟩
    exact of_decide_eq_true hl

/-- Of a text that is read to its end nothing is left. -/
theorem Taken.eq_end (h : Taken c c' c.rest) : c' = ⟨c.number + c.rest.length, []⟩ := by
  have hrest : c'.rest = [] := List.self_eq_append_right.1 h.rest
  rw [← h.number, ← hrest]

theorem taken_all (c : LineCursor) : Taken c ⟨c.number + c.rest.length, []⟩ c.rest :=
  ⟨(List.append_nil _).symm, rfl⟩

/-! ### Scans -/

theorem scanFrom_unended {number : Nat} {rest : List Line} (h : Inside (rest.map trim)) :
    scanFrom part number rest = .error (.unexpectedEnd part) ⟨number + rest.length, []⟩ := by
  induction rest generalizing number with
  | nil => rfl
  | cons raw rest ih =>
    obtain ⟨hend, htail⟩ := List.forall_mem_cons.1 h
    rw [scanFrom, if_neg hend, ih htail, List.length_cons, Nat.add_right_comm, Nat.add_assoc]

/-- The lines before the first end of a block, and the cursor behind that one. -/
def Ended (c : LineCursor) (visited : List Line) (c' : LineCursor) : Prop :=
  ∃ read, Taken c c' read ∧ read.map trim = visited ++ [blockEnd] ∧ Inside visited

/-- The block does not end in the text, and the cursor stands at the end of the text. -/
structure Unended (c c' : LineCursor) : Prop where
  taken : Taken c c' c.rest
  inside : Inside (c.rest.map trim)

theorem Ended.scanBlock {visited : List Line} (h : Ended c visited c') (part : Part) :
    scanBlock part c = .ok visited c' := by
  obtain ⟨read, ht, hread, hvisited⟩ := h
  exact (reads_scanBlock part hvisited).of_taken ht hread

theorem Ended.mem {visited : List Line} (h : Ended c visited c') : blockEnd ∈ c.rest.map trim := by
  obtain ⟨read, ht, hread, -⟩ := h
  rw [ht.rest, List.map_append, hread]
  simp

theorem Unended.scanBlock (h : Unended c c') (part : Part) :
    scanBlock part c = .error (.unexpectedEnd part) c' := by
  rw [h.taken.eq_end]
  exact scanFrom_unended h.inside

theorem ended_or_unended (c : LineCursor) :
    (∃ visited c', Ended c visited c') ∨ ∃ c', Unended c c' := by
  rcases exists_first (· = blockEnd) c with hnone | ⟨c', read, visited, l, ht, hread, hvisited, rfl⟩
  · exact .inr ⟨_, taken_all c, hnone⟩
  · exact .inl ⟨visited, c', read, ht, hread, hvisited⟩

/-- How a scan of the current block ends. -/
structure ScanEnds (part : Part) (c : LineCursor) : Prop where
  succeeds : (∃ visited c', scanBlock part c = .ok visited c') ↔ blockEnd ∈ c.rest.map trim
  ok_iff : ∀ visited c', scanBlock part c = .ok visited c' ↔ Ended c visited c'
  error_iff : ∀ e c', scanBlock part c = .error e c' ↔ Unended c c' ∧ e = .unexpectedEnd part

theorem scanEnds (part : Part) (c : LineCursor) : ScanEnds part c where
  succeeds := by
    obtain ⟨visited, c', hended⟩ | ⟨c', hunended⟩ := ended_or_unended c
    · exact iff_of_true ⟨visited, c', hended.scanBlock part⟩ hended.mem
    · rw [hunended.scanBlock part]
      exact iff_of_false (by simp) fun hmem => hunended.inside blockEnd hmem rfl
  ok_iff visited c' := by
    refine ⟨fun h => ?_, fun h => h.scanBlock part⟩
    obtain ⟨visited', c'', hended⟩ | ⟨c'', hunended⟩ := ended_or_unended c
    · cases h.symm.trans (hended.scanBlock part)
      exact hended
    · cases h.symm.trans (hunended.scanBlock part)
  error_iff e c' := by
    constructor
    · intro h
      obtain ⟨visited, c'', hended⟩ | ⟨c'', hunended⟩ := ended_or_unended c
      · cases h.symm.trans (hended.scanBlock part)
      · cases h.symm.trans (hunended.scanBlock part)
        exact ⟨hunended, rfl⟩
    · rintro ⟨h, rfl⟩
      exact h.scanBlock part

/-! ### Searches -/

theorem findFrom_unended {number : Nat} {rest : List Line} (h : Passed keyword (rest.map trim)) :
    findFrom keyword part number rest =
      .error (.unexpectedEnd part) ⟨number + rest.length, []⟩ := by
  have hfind : findFrom keyword part number (rest ++ []) =
      findFrom keyword part (number + rest.length) [] := findFrom_passed h number []
  rwa [List.append_nil] at hfind

/-- The first line with the keyword, which stands before any end of a block, and the cursor behind
it. -/
structure Found (keyword : String) (c : LineCursor) (line : Line) (c' : LineCursor) : Prop where
  first : ∃ read before, Taken c c' read ∧ read.map trim = before ++ [line] ∧ Passed keyword before
  starts : startsWith keyword line = true

/-- What keeps a search from finding a line, and the cursor behind the lines that it has read. The end
of a block that begins with the keyword itself is found like any other line. -/
inductive Missed (keyword : String) (part : Part) (c : LineCursor) : ParseError → LineCursor → Prop
  /-- The block has ended in the line of this number. -/
  | blockEnded {c' : LineCursor} {read before : List Line} (taken : Taken c c' read)
    (lines : read.map trim = before ++ [blockEnd]) (passed : Passed keyword before)
    (unlike : startsWith keyword blockEnd = false) :
    Missed keyword part c (.malformed c'.number (.blockEnded part keyword)) c'
  | textEnded {c' : LineCursor} (taken : Taken c c' c.rest)
    (passed : Passed keyword (c.rest.map trim)) : Missed keyword part c (.unexpectedEnd part) c'

theorem Found.seekInBlock {line : Line} (h : Found keyword c line c') (part : Part) :
    seekInBlock keyword part c = .ok line c' := by
  obtain ⟨⟨read, before, ht, hread, hbefore⟩, hline⟩ := h
  exact (reads_seekInBlock part hbefore hline).of_taken ht hread

theorem Missed.seekInBlock {e : ParseError} (h : Missed keyword part c e c') :
    seekInBlock keyword part c = .error e c' := by
  cases h with
  | blockEnded ht hread hbefore hunlike =>
    exact bind_of_ok ((reads_findInBlock?_none part hbefore hunlike).of_taken ht hread) _
  | textEnded ht hpassed =>
    rw [ht.eq_end]
    exact bind_of_error (findFrom_unended hpassed) _

theorem found_or_missed (keyword : String) (part : Part) (c : LineCursor) :
    (∃ line c', Found keyword c line c') ∨ ∃ e c', Missed keyword part c e c' := by
  have hpassed {ls : List Line} (h : ∀ l ∈ ls, ¬(startsWith keyword l = true ∨ l = blockEnd)) :
      Passed keyword ls := fun l hl => by simpa using h l hl
  rcases exists_first (fun l => startsWith keyword l = true ∨ l = blockEnd) c with
    hnone | ⟨c', read, before, l, ht, hread, hbefore, hl⟩
  · exact .inr ⟨_, _, .textEnded (taken_all c) (hpassed hnone)⟩
  · cases hstarts : startsWith keyword l with
    | true => exact .inl ⟨l, c', ⟨read, before, ht, hread, hpassed hbefore⟩, hstarts⟩
    | false =>
      obtain rfl : l = blockEnd := hl.resolve_left (by simp [hstarts])
      exact .inr ⟨_, _, .blockEnded ht hread (hpassed hbefore) hstarts⟩

/-- How a search for a keyword in the current block ends. -/
structure SeekEnds (keyword : String) (part : Part) (c : LineCursor) : Prop where
  ok_iff : ∀ line c', seekInBlock keyword part c = .ok line c' ↔ Found keyword c line c'
  error_iff : ∀ e c', seekInBlock keyword part c = .error e c' ↔ Missed keyword part c e c'

theorem seekEnds (keyword : String) (part : Part) (c : LineCursor) : SeekEnds keyword part c where
  ok_iff line c' := by
    refine ⟨fun h => ?_, fun h => h.seekInBlock part⟩
    obtain ⟨line', c'', hfound⟩ | ⟨e, c'', hmissed⟩ := found_or_missed keyword part c
    · cases h.symm.trans (hfound.seekInBlock part)
      exact hfound
    · cases h.symm.trans hmissed.seekInBlock
  error_iff e c' := by
    refine ⟨fun h => ?_, fun h => h.seekInBlock⟩
    obtain ⟨line, c'', hfound⟩ | ⟨e', c'', hmissed⟩ := found_or_missed keyword part c
    · cases h.symm.trans (hfound.seekInBlock part)
    · cases h.symm.trans hmissed.seekInBlock
      exact hmissed

/-! ### Rows of calls -/

/-- A call that hands out lines. -/
inductive Call
  | next
  | scan (part : Part)
  | seek (keyword : String) (part : Part)

/-- The lines that are left, each with its number. -/
def numbered (c : LineCursor) : List (Line × Nat) := (c.rest.map trim).zipIdx (c.number + 1)

namespace Call

/-- The cursor that a call leaves, whether it succeeds or not. -/
def leave (c : LineCursor) : Call → LineCursor
  | next => stop (next? c)
  | scan part => stop (scanBlock part c)
  | seek keyword part => stop (seekInBlock keyword part c)

/-- The lines that a call hands out, each with its number. A scan hands out the lines of the block as
it comes to them, also those of a block that does not end. -/
def hand (c : LineCursor) : Call → List (Line × Nat)
  | next =>
    match next? c with
    | .ok (some line) c' => [(line, c'.number)]
    | _ => []
  | scan _ => (numbered c).takeWhile (·.1 ≠ blockEnd)
  | seek keyword part =>
    match seekInBlock keyword part c with
    | .ok line c' => [(line, c'.number)]
    | .error _ _ => []

/-- What a row of calls hands out. -/
def handAll (c : LineCursor) : List Call → List (Line × Nat)
  | [] => []
  | call :: calls => call.hand c ++ handAll (call.leave c) calls

end Call

theorem numbered_of_taken (h : Taken c c' read) :
    numbered c = (read.map trim).zipIdx (c.number + 1) ++ numbered c' := by
  rw [numbered, numbered, h.rest, h.number, List.map_append, List.zipIdx_append, List.length_map,
    Nat.add_right_comm]

theorem Forward.exists_taken {r : LineReader α} (h : Forward r) (c : LineCursor) :
    ∃ read, Taken c (stop (r c)) read := by
  obtain ⟨n, hn, hstop⟩ := h c
  rw [hstop]
  exact ⟨c.rest.take n, (List.take_append_drop n c.rest).symm, by simp [LineCursor.drop, hn]⟩

/-- The last of some lines, with its number. -/
theorem sublist_last {before : List Line} {line : Line} (h : Taken c c' read)
    (hread : read.map trim = before ++ [line]) :
    [(line, c'.number)].Sublist ((read.map trim).zipIdx (c.number + 1)) := by
  have hlength : c'.number = c.number + 1 + before.length := by
    have hmap := congrArg List.length hread
    rw [List.length_map, List.length_append, List.length_singleton] at hmap
    rw [h.number, hmap]
    omega
  rw [hread, List.zipIdx_append, hlength]
  exact List.sublist_append_right _ _

/-- A scan visits the lines before the end of the block. -/
theorem takeWhile_numbered {visited : List Line} (h : Taken c c' read)
    (hread : read.map trim = visited ++ [blockEnd]) (hvisited : Inside visited) :
    (numbered c).takeWhile (·.1 ≠ blockEnd) = visited.zipIdx (c.number + 1) := by
  have hinside : ∀ p ∈ visited.zipIdx (c.number + 1), decide (p.1 ≠ blockEnd) = true :=
    fun p hp => decide_eq_true (hvisited p.1 (List.fst_mem_of_mem_zipIdx hp))
  rw [numbered_of_taken h, hread, List.zipIdx_append, List.append_assoc,
    List.takeWhile_append_of_pos hinside]
  simp

namespace Call

/-- A call takes the lines from its cursor to the one that it leaves, and hands out some of them. -/
theorem exists_taken (c : LineCursor) (call : Call) : ∃ read, Taken c (call.leave c) read ∧
    (call.hand c).Sublist ((read.map trim).zipIdx (c.number + 1)) := by
  cases call with
  | next =>
    obtain ⟨number, _ | ⟨raw, rest⟩⟩ := c
    · exact ⟨[], taken_nil _, .slnil⟩
    · exact ⟨[raw], taken_cons number raw rest, .refl _⟩
  | scan part =>
    rw [leave, hand]
    cases hscan : scanBlock part c with
    | ok visited c' =>
      obtain ⟨read, ht, hread, hvisited⟩ := ((scanEnds part c).ok_iff visited c').1 hscan
      refine ⟨read, ht, ?_⟩
      rw [takeWhile_numbered ht hread hvisited, hread, List.zipIdx_append]
      exact List.sublist_append_left _ _
    | error e c' =>
      obtain ⟨hunended, -⟩ := ((scanEnds part c).error_iff e c').1 hscan
      exact ⟨c.rest, hunended.taken, List.takeWhile_sublist _⟩
  | seek keyword part =>
    rw [leave, hand]
    cases hseek : seekInBlock keyword part c with
    | ok line c' =>
      obtain ⟨⟨read, before, ht, hread, -⟩, -⟩ := ((seekEnds keyword part c).ok_iff line c').1 hseek
      exact ⟨read, ht, sublist_last ht hread⟩
    | error e c' =>
      obtain ⟨read, ht⟩ := (forward_seekInBlock keyword part).exists_taken c
      rw [hseek] at ht
      exact ⟨read, ht, List.nil_sublist _⟩

theorem handAll_sublist (calls : List Call) (c : LineCursor) :
    (handAll c calls).Sublist (numbered c) := by
  induction calls generalizing c with
  | nil => exact List.nil_sublist _
  | cons call calls ih =>
    obtain ⟨read, ht, hhand⟩ := call.exists_taken c
    rw [handAll, numbered_of_taken ht]
    exact hhand.append (ih _)

end Call

/-- Wherever a cursor stands: a scan and a search end as they should, a scan has visited just the
lines before the end of the block, and whatever is called one after the other hands out no line
twice and none out of order. -/
theorem blocks_end (keyword : String) (part : Part) (c : LineCursor) :
    ScanEnds part c ∧ SeekEnds keyword part c ∧
      (∀ visited c', scanBlock part c = .ok visited c' →
        (Call.scan part).hand c = visited.zipIdx (c.number + 1)) ∧
      ∀ calls, (Call.handAll c calls).Sublist (numbered c) := by
  refine ⟨scanEnds part c, seekEnds keyword part c, fun visited c' hscan => ?_,
    fun calls => Call.handAll_sublist calls c⟩
  obtain ⟨read, ht, hread, hvisited⟩ := ((scanEnds part c).ok_iff visited c').1 hscan
  exact takeWhile_numbered ht hread hvisited

/-- The line that is looked for comes after the block has ended. -/
example : seekInBlock "Figure1" .connectorBlock (.ofText "\x7b\nStyle \"x\"\n\x7d\nFigure1 3") =
    .error (.malformed 3 (.blockEnded .connectorBlock "Figure1")) ⟨3, ["Figure1 3".toList]⟩ := by
  rfl

end Schemata.LineReader
