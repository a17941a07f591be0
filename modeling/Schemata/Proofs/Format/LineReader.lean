import Schemata.Format.LineReader

/-!
# What line readers do

A reader that has come to a result hands over the lines that it has left. A loop goes on from where
its step has stopped.
-/
namespace Schemata.LineReader
open Text
variable {α β σ : Type}

theorem bind_of_ok {r : LineReader α} {c c' : LineCursor} {a : α} (h : r c = .ok a c')
    (next : α → LineReader β) : (r >>= next) c = next a c' := by
  change EStateM.bind r next c = next a c'
  rw [EStateM.bind, h]

theorem next_cons (part : Part) (number : Nat) (raw : Line) (rest : List Line) :
    next part ⟨number, raw :: rest⟩ = .ok (trim raw) ⟨number + 1, rest⟩ := rfl

/-! ### Lines that a reader takes -/

/-- Whatever raw lines show these without the blanks at their ends, and whatever follows, the reader
takes just them and gives the result. -/
def Reads (r : LineReader α) (ls : List Line) (a : α) : Prop :=
  ∀ number raws rest, raws.map trim = ls →
    r ⟨number, raws ++ rest⟩ = .ok a ⟨number + raws.length, rest⟩

theorem reads_pure (a : α) : Reads (pure a) [] a := by
  intro number raws rest h
  cases List.map_eq_nil_iff.1 h
  rfl

theorem Reads.bind {r : LineReader α} {next : α → LineReader β} {ls ls' : List Line} {a : α}
    {b : β} (hr : Reads r ls a) (hnext : Reads (next a) ls' b) :
    Reads (r >>= next) (ls ++ ls') b := by
  intro number raws rest h
  obtain ⟨raws, raws', rfl, h, h'⟩ := List.map_eq_append_iff.1 h
  rw [List.append_assoc]
  apply (bind_of_ok (hr number raws (raws' ++ rest) h) _).trans
  rw [hnext _ raws' rest h', List.length_append, Nat.add_assoc]

/-- A reader that takes no line, and then others. -/
theorem Reads.nil_bind {r : LineReader α} {next : α → LineReader β} {ls : List Line} {a : α}
    {b : β} (hr : Reads r [] a) (hnext : Reads (next a) ls b) : Reads (r >>= next) ls b :=
  hr.bind hnext

/-- A reader, and then others that take no line. -/
theorem Reads.bind_nil {r : LineReader α} {next : α → LineReader β} {ls : List Line} {a : α}
    {b : β} (hr : Reads r ls a) (hnext : Reads (next a) [] b) : Reads (r >>= next) ls b := by
  rw [← List.append_nil ls]
  exact hr.bind hnext

theorem reads_next (part : Part) (l : Line) : Reads (next part) [l] l := by
  intro number raws rest h
  obtain ⟨raw, rfl, rfl⟩ := List.map_eq_singleton_iff.1 h
  rfl

theorem reads_quoted {line inner : Line} (h : quoted? line = some inner) :
    Reads (quoted line) [] inner := by
  unfold quoted
  rw [h]
  exact reads_pure inner

theorem reads_labelledId {line : Line} {id : Nat} (h : readWord? (afterLabel line) = some id) :
    Reads (labelledId line) [] id := by
  unfold labelledId
  rw [h]
  exact reads_pure id

/-- Lines of a block before its end. -/
def Inside (ls : List Line) : Prop := ∀ l ∈ ls, l ≠ blockEnd

/-- Lines of a block before its end, none of which begins with the keyword. -/
def Passed (keyword : String) (ls : List Line) : Prop :=
  ∀ l ∈ ls, startsWith keyword l = false ∧ l ≠ blockEnd

instance (ls : List Line) : Decidable (Inside ls) := inferInstanceAs (Decidable (∀ l ∈ ls, _))

instance (keyword : String) (ls : List Line) : Decidable (Passed keyword ls) :=
  inferInstanceAs (Decidable (∀ l ∈ ls, _))

theorem findFrom_passed {keyword : String} {part : Part} {raws : List Line}
    (h : Passed keyword (raws.map trim)) (number : Nat) (rest : List Line) :
    findFrom keyword part number (raws ++ rest) =
      findFrom keyword part (number + raws.length) rest := by
  induction raws generalizing number with
  | nil => rfl
  | cons raw raws ih =>
    obtain ⟨⟨hkeyword, hend⟩, htail⟩ := List.forall_mem_cons.1 h
    rw [List.cons_append, findFrom, hkeyword, if_neg Bool.false_ne_true, if_neg hend, ih htail,
      List.length_cons, Nat.add_right_comm, Nat.add_assoc]

theorem reads_findInBlock? {keyword : String} {before : List Line} {l : Line} (part : Part)
    (hbefore : Passed keyword before) (hl : startsWith keyword l = true) :
    Reads (findInBlock? keyword part) (before ++ [l]) (some l) := by
  intro number raws rest h
  obtain ⟨raws, raws', rfl, rfl, h'⟩ := List.map_eq_append_iff.1 h
  obtain ⟨raw, rfl, rfl⟩ := List.map_eq_singleton_iff.1 h'
  rw [findInBlock?, List.append_assoc, findFrom_passed hbefore, List.singleton_append, findFrom,
    if_pos hl, List.length_append]
  rfl

theorem reads_findInBlock?_none {keyword : String} {ls : List Line} (part : Part)
    (hls : Passed keyword ls) (hend : startsWith keyword blockEnd = false) :
    Reads (findInBlock? keyword part) (ls ++ [blockEnd]) none := by
  intro number raws rest h
  obtain ⟨raws, raws', rfl, rfl, h'⟩ := List.map_eq_append_iff.1 h
  obtain ⟨raw, rfl, hraw⟩ := List.map_eq_singleton_iff.1 h'
  rw [findInBlock?, List.append_assoc, findFrom_passed hls, List.singleton_append, findFrom, hraw,
    hend, if_neg Bool.false_ne_true, if_pos rfl, List.length_append]
  rfl

theorem reads_seekInBlock {keyword : String} {before : List Line} {l : Line} (part : Part)
    (hbefore : Passed keyword before) (hl : startsWith keyword l = true) :
    Reads (seekInBlock keyword part) (before ++ [l]) l :=
  (reads_findInBlock? part hbefore hl).bind_nil (reads_pure l)

theorem scanFrom_inside {part : Part} {raws : List Line} {raw : Line} (h : Inside (raws.map trim))
    (hraw : trim raw = blockEnd) (number : Nat) (rest : List Line) :
    scanFrom part number (raws ++ raw :: rest) =
      .ok (raws.map trim) ⟨number + raws.length + 1, rest⟩ := by
  induction raws generalizing number with
  | nil =>
    rw [List.nil_append, scanFrom, if_pos hraw]
    rfl
  | cons raw' raws ih =>
    obtain ⟨hend, htail⟩ := List.forall_mem_cons.1 h
    rw [List.cons_append, scanFrom, if_neg hend, ih htail, List.map_cons, List.length_cons,
      Nat.add_right_comm number 1]
    rfl

theorem reads_scanBlock {ls : List Line} (part : Part) (hls : Inside ls) :
    Reads (scanBlock part) (ls ++ [blockEnd]) ls := by
  intro number raws rest h
  obtain ⟨raws, raws', rfl, rfl, h'⟩ := List.map_eq_append_iff.1 h
  obtain ⟨raw, rfl, hraw⟩ := List.map_eq_singleton_iff.1 h'
  rw [scanBlock, List.append_assoc, List.singleton_append, scanFrom_inside hls hraw,
    List.length_append]
  rfl

/-! ### Loops -/

section Loop
variable {step : σ → Line → LineReader (σ × Bool)} {hstep : ∀ s line, Forward (step s line)}

theorem eachLine_nil (gathered : σ) (number : Nat) :
    eachLine step hstep gathered ⟨number, []⟩ = .ok gathered ⟨number, []⟩ := by
  rw [eachLine]

theorem eachLine_cons (gathered : σ) (number : Nat) (raw : Line) (rest : List Line) :
    eachLine step hstep gathered ⟨number, raw :: rest⟩ =
      match step gathered (trim raw) ⟨number + 1, rest⟩ with
      | .error e c => .error e c
      | .ok (gathered', false) c => .ok gathered' c
      | .ok (gathered', true) c => eachLine step hstep gathered' c := by
  rw [eachLine]
  split
  · rename_i h
    cases h
  · rename_i h
    cases h
    split <;> rename_i hr <;> simp only [hr]

/-- A loop that takes the lines of one more round and goes on. -/
theorem eachLine_of_reads {gathered gathered' : σ} {line : Line} {ls : List Line}
    (h : Reads (step gathered line) ls (gathered', true)) {raws : List Line}
    (hraws : raws.map trim = line :: ls) (number : Nat) (rest : List Line) :
    eachLine step hstep gathered ⟨number, raws ++ rest⟩ =
      eachLine step hstep gathered' ⟨number + raws.length, rest⟩ := by
  obtain ⟨raw, raws, rfl, rfl, hls⟩ := List.map_eq_cons_iff.1 hraws
  rw [List.cons_append, eachLine_cons, h (number + 1) raws rest hls, List.length_cons]
  simp only [Nat.add_right_comm, Nat.add_assoc]

end Loop

end Schemata.LineReader
