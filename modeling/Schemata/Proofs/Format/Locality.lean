import Schemata.Proofs.Format.LineReader

/-!
# What the lines read so far decide

A reader sees a line by taking it, and the lines that it has taken decide what it comes to: in any
text that goes on with them it comes to the same. Only a reader that has missed a line at the end of
the text might have gone on. A fault of a line comes with the number of the line taken last.
-/
namespace Schemata
open Text

/-- The faults that are found while the lines of a text are read. -/
def ParseError.OfLines : ParseError → Prop
  | .wrongFileType _ | .unexpectedEnd _ | .malformed _ _ | .containsRelations | .blankName
  | .duplicateTable _ => True
  | _ => False

/-- Found with this line as the one that has been read last. -/
structure ParseError.FoundAt (line : Nat) (e : ParseError) : Prop where
  ofLines : e.OfLines
  number : ∀ n fault, e = .malformed n fault → n = line

namespace LineReader
variable {α β σ : Type} {r : LineReader α} {c c' c'' : LineCursor} {read more : List Line}

/-- The lines that lie between two cursors. -/
structure Taken (c c' : LineCursor) (read : List Line) : Prop where
  rest : c.rest = read ++ c'.rest
  number : c'.number = c.number + read.length

/-- Wherever a text goes on with these lines, the reader takes just them and comes to the result. -/
def Settles (read : List Line) (r : LineReader α) (number : Nat)
    (result : LineCursor → EStateM.Result ParseError LineCursor α) : Prop :=
  ∀ rest, r ⟨number, read ++ rest⟩ = result ⟨number + read.length, rest⟩

/-- The result is decided by the lines taken, unless the text has ended too early. -/
inductive Decided (r : LineReader α) (c : LineCursor) :
    EStateM.Result ParseError LineCursor α → Prop
  | answered {read a c'} (taken : Taken c c' read) (settles : Settles read r c.number (.ok a)) :
    Decided r c (.ok a c')
  | refused {read e c'} (taken : Taken c c' read) (settles : Settles read r c.number (.error e))
    (found : e.FoundAt c'.number) : Decided r c (.error e c')
  | ended (part : Part) (c') : Decided r c (.error (.unexpectedEnd part) c')

/-- Wherever the reader begins, the lines that it takes decide what it comes to. -/
def Local (r : LineReader α) : Prop := ∀ c, Decided r c (r c)

/-- If the reader refuses the text from here on, the lines that it takes decide it. -/
def RefusesLocally (r : LineReader α) (c : LineCursor) : Prop :=
  ∀ e c', r c = .error e c' → Decided r c (.error e c')

theorem taken_nil (c : LineCursor) : Taken c c [] := ⟨rfl, rfl⟩

theorem taken_cons (number : Nat) (raw : Line) (rest : List Line) :
    Taken ⟨number, raw :: rest⟩ ⟨number + 1, rest⟩ [raw] := ⟨rfl, rfl⟩

theorem Taken.trans (h : Taken c c' read) (h' : Taken c' c'' more) :
    Taken c c'' (read ++ more) where
  rest := by rw [h.rest, h'.rest, List.append_assoc]
  number := by rw [h'.number, h.number, List.length_append, Nat.add_assoc]

/-- A reader that has taken some lines and then goes on as another one does. -/
theorem Decided.after {r' : LineReader α} {result : EStateM.Result ParseError LineCursor α}
    (ht : Taken c c' read) (hr : ∀ rest, r ⟨c.number, read ++ rest⟩ = r' ⟨c'.number, rest⟩)
    (h : Decided r' c' result) : Decided r c result := by
  have hsettles {more : List Line} {result : LineCursor → EStateM.Result ParseError LineCursor α}
      (hmore : Settles more r' c'.number result) :
      Settles (read ++ more) r c.number result := by
    intro rest
    rw [List.append_assoc, hr, hmore rest, ht.number, List.length_append, Nat.add_assoc]
  cases h with
  | answered ht' h => exact .answered (ht.trans ht') (hsettles h)
  | refused ht' h hfound => exact .refused (ht.trans ht') (hsettles h) hfound
  | ended part => exact .ended part _

theorem Taken.take_eq (h : Taken c c' read) (hc : c.number = 0) : c.rest.take c'.number = read := by
  rw [h.rest, h.number, hc, Nat.zero_add, List.take_left]

/-- Lines that are read are counted. -/
theorem Taken.count_eq (h : Taken c c' read) :
    c'.number + c'.rest.length = c.number + c.rest.length := by
  rw [h.rest, h.number, List.length_append, Nat.add_assoc]

theorem Decided.taken {a : α} (h : Decided r c (.ok a c')) : ∃ read, Taken c c' read := by
  cases h with
  | answered ht _ => exact ⟨_, ht⟩

theorem bind_of_error {e : ParseError} (h : r c = .error e c') (next : α → LineReader β) :
    (r >>= next) c = .error e c' := by
  change EStateM.bind r next c = .error e c'
  rw [EStateM.bind, h]

/-- What has been refused is not gone on with. -/
theorem Decided.bind_error {e : ParseError} (h : Decided r c (.error e c'))
    (next : α → LineReader β) : Decided (r >>= next) c (.error e c') := by
  cases h with
  | refused ht h hfound => exact .refused ht (fun rest => bind_of_error (h rest) next) hfound
  | ended part => exact .ended part _

theorem Decided.bind_ok {a : α} (h : Decided r c (.ok a c')) {next : α → LineReader β}
    {result : EStateM.Result ParseError LineCursor β} (hnext : Decided (next a) c' result) :
    Decided (r >>= next) c result := by
  cases h with
  | answered ht h =>
    apply Decided.after ht _ hnext
    intro rest
    rw [bind_of_ok (h rest), ht.number]

theorem Decided.bind {next : α → LineReader β} (h : Decided r c (r c))
    (hnext : ∀ a, Local (next a)) : Decided (r >>= next) c ((r >>= next) c) := by
  cases hr : r c with
  | error e c' =>
    rw [bind_of_error hr]
    exact (hr ▸ h).bind_error next
  | ok a c' =>
    rw [bind_of_ok hr]
    exact (hr ▸ h).bind_ok (hnext a c')

theorem Local.bind {next : α → LineReader β} (h : Local r) (hnext : ∀ a, Local (next a)) :
    Local (r >>= next) := fun c => (h c).bind hnext

theorem Local.refusesLocally (h : Local r) (c : LineCursor) : RefusesLocally r c :=
  fun _ _ he => he ▸ h c

theorem RefusesLocally.bind {next : α → LineReader β} (h : RefusesLocally r c)
    (hr : ∀ a c', r c = .ok a c' → Decided r c (.ok a c') ∧ RefusesLocally (next a) c') :
    RefusesLocally (r >>= next) c := by
  intro e c'' he
  cases hc : r c with
  | error e' c' =>
    rw [bind_of_error hc] at he
    cases he
    exact (h _ _ hc).bind_error next
  | ok a c' =>
    rw [bind_of_ok hc] at he
    obtain ⟨ha, hnext⟩ := hr a c' hc
    exact ha.bind_ok (hnext _ _ he)

/-! ### Single lines -/

theorem local_pure (a : α) : Local (pure a) := fun c => .answered (taken_nil c) fun _ => rfl

theorem local_throw {e : ParseError} (h : ∀ line, e.FoundAt line) :
    Local (throw e : LineReader α) := fun c => .refused (taken_nil c) (fun _ => rfl) (h c.number)

theorem local_refuse (fault : LineFault) : Local (refuse fault : LineReader α) := by
  intro c
  refine .refused (taken_nil c) (fun _ => rfl) ⟨trivial, ?_⟩
  intro n fault' he
  cases he
  rfl

theorem local_next (part : Part) : Local (next part) := by
  rintro ⟨number, _ | ⟨raw, rest⟩⟩
  · exact .ended part _
  · exact .answered (taken_cons number raw rest) fun _ => rfl

theorem local_labelledId (line : Line) : Local (labelledId line) := by
  unfold labelledId
  split
  · exact local_pure _
  · exact local_refuse _

theorem local_quoted (line : Line) : Local (quoted line) := by
  unfold quoted
  split
  · exact local_pure _
  · exact local_refuse _

/-! ### Runs of lines -/

theorem local_findInBlock? (keyword : String) (part : Part) :
    Local (findInBlock? keyword part) := by
  rintro ⟨number, rest⟩
  induction rest generalizing number with
  | nil => exact .ended part _
  | cons raw rest ih =>
    have ht := taken_cons number raw rest
    by_cases hkeyword : startsWith keyword (trim raw)
    · have hfound (rest : List Line) : findInBlock? keyword part ⟨number, raw :: rest⟩ =
          .ok (some (trim raw)) ⟨number + 1, rest⟩ := by
        rw [findInBlock?, findFrom, if_pos hkeyword]
      rw [hfound]
      exact .answered ht hfound
    · by_cases hend : trim raw = blockEnd
      · have hnone (rest : List Line) : findInBlock? keyword part ⟨number, raw :: rest⟩ =
            .ok none ⟨number + 1, rest⟩ := by
          rw [findInBlock?, findFrom, if_neg hkeyword, if_pos hend]
        rw [hnone]
        exact .answered ht hnone
      · have hon (rest : List Line) : findInBlock? keyword part ⟨number, raw :: rest⟩ =
            findInBlock? keyword part ⟨number + 1, rest⟩ := by
          rw [findInBlock?, findFrom, if_neg hkeyword, if_neg hend]
          rfl
        rw [hon]
        exact (ih (number + 1)).after ht hon

theorem local_seekInBlock (keyword : String) (part : Part) : Local (seekInBlock keyword part) :=
  (local_findInBlock? keyword part).bind fun
    | some _ => local_pure _
    | none => local_refuse _

theorem local_scanBlock (part : Part) : Local (scanBlock part) := by
  rintro ⟨number, rest⟩
  induction rest generalizing number with
  | nil => exact .ended part _
  | cons raw rest ih =>
    have ht := taken_cons number raw rest
    by_cases hend : trim raw = blockEnd
    · have hnone (rest : List Line) : scanBlock part ⟨number, raw :: rest⟩ =
          .ok [] ⟨number + 1, rest⟩ := by rw [scanBlock, scanFrom, if_pos hend]
      rw [hnone]
      exact .answered ht hnone
    · have hon (rest : List Line) : scanBlock part ⟨number, raw :: rest⟩ =
          (do return trim raw :: (← scanBlock part) : LineReader (List Line))
            ⟨number + 1, rest⟩ := by
        have hscan : scanFrom part (number + 1) rest = scanBlock part ⟨number + 1, rest⟩ := rfl
        rw [scanBlock, scanFrom, if_neg hend, hscan]
        cases hrest : scanBlock part ⟨number + 1, rest⟩ with
        | ok visited c =>
          rw [bind_of_ok hrest]
          rfl
        | error e c => rw [bind_of_error hrest]
      rw [hon]
      exact ((ih (number + 1)).bind fun visited => local_pure _).after ht hon

/-- Of a text with nothing but blank lines it is not known yet what it will be. -/
theorem decided_expectSignature (signature : String) (c : LineCursor) :
    Decided (expectSignature signature) c (expectSignature signature c) ∨
      (∃ c', expectSignature signature c = .error (.wrongFileType signature) c') ∧
        ∀ raw ∈ c.rest, trim raw = [] := by
  obtain ⟨number, rest⟩ := c
  induction rest generalizing number with
  | nil => exact .inr ⟨⟨_, rfl⟩, nofun⟩
  | cons raw rest ih =>
    have ht := taken_cons number raw rest
    by_cases hblank : trim raw = []
    · have hon (rest : List Line) : expectSignature signature ⟨number, raw :: rest⟩ =
          expectSignature signature ⟨number + 1, rest⟩ := by
        rw [expectSignature, signatureFrom, if_pos hblank]
        rfl
      rw [hon]
      rcases ih (number + 1) with h | ⟨h, hrest⟩
      · exact .inl (h.after ht hon)
      · exact .inr ⟨h, List.forall_mem_cons.2 ⟨hblank, hrest⟩⟩
    · refine .inl ?_
      by_cases hstart : startsWith signature (trim raw)
      · have hok (rest : List Line) : expectSignature signature ⟨number, raw :: rest⟩ =
            .ok () ⟨number + 1, rest⟩ := by
          rw [expectSignature, signatureFrom, if_neg hblank, if_pos hstart]
        rw [hok]
        exact .answered ht hok
      · have herror (rest : List Line) : expectSignature signature ⟨number, raw :: rest⟩ =
            .error (.wrongFileType signature) ⟨number + 1, rest⟩ := by
          rw [expectSignature, signatureFrom, if_neg hblank, if_neg hstart]
        rw [herror]
        exact .refused ht herror ⟨trivial, nofun⟩

/-! ### Loops -/

section Loop
variable {step : σ → Line → LineReader (σ × Bool)} {hstep : ∀ s line, Forward (step s line)}

/-- What a loop does after a step. -/
def afterStep (step : σ → Line → LineReader (σ × Bool)) (hstep : ∀ s line, Forward (step s line)) :
    σ × Bool → LineReader σ
  | (gathered, true) => eachLine step hstep gathered
  | (gathered, false) => pure gathered

theorem eachLine_cons_eq_bind (gathered : σ) (number : Nat) (raw : Line) (rest : List Line) :
    eachLine step hstep gathered ⟨number, raw :: rest⟩ =
      (step gathered (trim raw) >>= afterStep step hstep) ⟨number + 1, rest⟩ := by
  rw [eachLine_cons]
  cases hr : step gathered (trim raw) ⟨number + 1, rest⟩ with
  | error e c => rw [bind_of_error hr]
  | ok s c =>
    rw [bind_of_ok hr]
    obtain ⟨s, _ | _⟩ := s <;> rfl

/-- What a step refuses, the loop refuses. That no line is left is no fault of a loop. -/
theorem refusesLocally_eachLine (h : ∀ s line, Local (step s line)) (s : σ) (c : LineCursor) :
    RefusesLocally (eachLine step hstep s) c := by
  induction hleft : c.rest.length using Nat.strongRecOn generalizing s c with
  | ind left ih =>
    obtain ⟨number, _ | ⟨raw, rest⟩⟩ := c
    · intro e c' he
      rw [eachLine_nil] at he
      cases he
    · intro e c' he
      rw [eachLine_cons_eq_bind] at he
      apply Decided.after (taken_cons number raw rest) (eachLine_cons_eq_bind s number raw)
      refine RefusesLocally.bind ((h s (trim raw)).refusesLocally _) ?_ e c' he
      rintro ⟨s', _ | _⟩ c' hs'
      · exact ⟨hs' ▸ h s (trim raw) _, (local_pure s').refusesLocally c'⟩
      · have hle := (hstep s (trim raw)).rest_length_le hs'
        exact ⟨hs' ▸ h s (trim raw) _, ih _ (hleft ▸ Nat.lt_succ_of_le hle) s' c' rfl⟩

/-- A loop whose steps all want more ends with the last line. -/
theorem eachLine_ends (h : ∀ s line, Local (step s line))
    (hmore : ∀ {s line c s' more c'}, step s line c = .ok (s', more) c' → more = true) {s s' : σ}
    (hs : eachLine step hstep s c = .ok s' c') : c' = ⟨c.number + c.rest.length, []⟩ := by
  induction s, c using eachLine.induct step hstep with
  | case1 s c hc =>
    obtain ⟨number, rest⟩ := c
    cases hc
    rw [eachLine_nil] at hs
    cases hs
    rfl
  | case2 s c raw rest hc e c₁ hr =>
    obtain ⟨number, lines⟩ := c
    cases hc
    rw [eachLine_cons, hr] at hs
    cases hs
  | case3 s c raw rest hc s₁ c₁ hr => cases hmore hr
  | case4 s c raw rest hc s₁ c₁ hr hlt ih =>
    obtain ⟨number, lines⟩ := c
    cases hc
    rw [eachLine_cons, hr] at hs
    obtain ⟨read, ht⟩ := (hr ▸ h s (trim raw) ⟨number + 1, rest⟩).taken
    rw [ih hs, ht.count_eq, List.length_cons, Nat.add_right_comm, Nat.add_assoc]

end Loop

end LineReader
end Schemata
