import Schemata.Format.Conversion
import Mathlib.Data.List.TakeWhile

/-!
# Looking formats up

Of the formats that an identifier stands for, the one entered last is found, whatever has been
entered before. An identifier is trimmed and then freed of dots before it, the names of a format are
taken as they are. So a format that is entered changes what is found for its own names only, and is
found under each of them that trimming leaves alone.
-/
namespace Schemata
open Text

/-! ### Identifiers -/

theorem dropWhile_eq_iff {α : Type} {p : α → Bool} {l rest : List α} : l.dropWhile p = rest ↔
    ∃ run, l = run ++ rest ∧ (∀ a ∈ run, p a = true) ∧ ∀ a ∈ rest.head?, p a = false := by
  constructor
  · rintro rfl
    refine ⟨l.takeWhile p, List.takeWhile_append_dropWhile.symm,
      fun a ha => List.mem_takeWhile_imp ha, fun a ha => ?_⟩
    have hhead := List.head?_dropWhile_not p l
    rwa [Option.mem_def.1 ha] at hhead
  · rintro ⟨run, rfl, hrun, hrest⟩
    rw [List.dropWhile_append_of_pos hrun]
    cases rest with
    | nil => rfl
    | cons a rest => simp [hrest a rfl]

/-- Without blanks at its ends. -/
def Bare (s : List Char) : Prop :=
  (∀ c ∈ s.head?, isBlank c = false) ∧ ∀ c ∈ s.getLast?, isBlank c = false

instance (s : List Char) : Decidable (Bare s) :=
  inferInstanceAs (Decidable ((∀ c ∈ s.head?, _) ∧ ∀ c ∈ s.getLast?, _))

theorem trimEnd_eq_iff {s core : List Char} : trimEnd s = core ↔
    ∃ after, s = core ++ after ∧ (∀ c ∈ after, isBlank c = true) ∧
      ∀ c ∈ core.getLast?, isBlank c = false := by
  rw [trimEnd, List.reverse_eq_iff, dropWhile_eq_iff, List.head?_reverse]
  constructor
  · rintro ⟨run, hrun, hblank, hlast⟩
    refine ⟨run.reverse, ?_, fun c hc => hblank c (List.mem_reverse.1 hc), hlast⟩
    rw [← List.reverse_reverse s, hrun, List.reverse_append, List.reverse_reverse]
  · rintro ⟨after, rfl, hblank, hlast⟩
    exact ⟨after.reverse, List.reverse_append, fun c hc => hblank c (List.mem_reverse.1 hc), hlast⟩

theorem trim_eq_iff {s core : List Char} : trim s = core ↔ ∃ before after,
    s = before ++ core ++ after ∧ (∀ c ∈ before, isBlank c = true) ∧
      (∀ c ∈ after, isBlank c = true) ∧ Bare core := by
  constructor
  · intro h
    obtain ⟨after, hafter, hblank', hlast⟩ := trimEnd_eq_iff.1 h
    obtain ⟨before, hs, hblank, hhead⟩ := dropWhile_eq_iff.1 hafter
    refine ⟨before, after, by rw [hs, List.append_assoc], hblank, hblank', fun c hc => ?_, hlast⟩
    apply hhead
    rw [List.head?_append, Option.mem_def.1 hc]
    rfl
  · rintro ⟨before, after, rfl, hblank, hblank', hhead, hlast⟩
    cases core with
    | nil =>
      have hall : ∀ c ∈ before ++ [] ++ after, isBlank c = true := by
        simpa using fun c hc => hc.elim (hblank c) (hblank' c)
      rw [trim, trimStart, List.dropWhile_eq_nil_iff.2 hall]
      rfl
    | cons c core =>
      rw [trim, trimEnd_eq_iff]
      refine ⟨after, ?_, hblank', hlast⟩
      exact dropWhile_eq_iff.2 ⟨before, List.append_assoc .., hblank, hhead⟩

/-- A name is what is left of an identifier without blanks around it and then without dots before
it. -/
def AsksFor (id name : String) : Prop :=
  ∃ before dots after, id.toList = before ++ (dots ++ name.toList) ++ after ∧
    (∀ c ∈ before, isBlank c = true) ∧ (∀ c ∈ after, isBlank c = true) ∧
    Bare (dots ++ name.toList) ∧ (∀ c ∈ dots, c = '.') ∧ ∀ c ∈ name.toList.head?, c ≠ '.'

theorem asksFor_iff {id name : String} : AsksFor id name ↔ formatName id = name := by
  rw [formatName, ← String.toList_inj, String.toList_ofList, dropWhile_eq_iff]
  constructor
  · rintro ⟨before, dots, after, hid, hbefore, hafter, hbare, hdots, hname⟩
    refine ⟨dots, ?_, by simpa using hdots, by simpa using hname⟩
    exact trim_eq_iff.2 ⟨before, after, hid, hbefore, hafter, hbare⟩
  · rintro ⟨dots, htrim, hdots, hname⟩
    obtain ⟨before, after, hid, hbefore, hafter, hbare⟩ := trim_eq_iff.1 htrim
    exact ⟨before, dots, after, hid, hbefore, hafter, hbare, by simpa using hdots,
      by simpa using hname⟩

/-- The identifier asks for one of two names, up to the case of the letters A to Z. -/
def Matches (id extension productName : String) : Prop :=
  ∃ name, AsksFor id name ∧ (equalFolded name extension = true ∨ equalFolded name productName = true)

theorem namesFormat_iff {id extension productName : String} :
    namesFormat id extension productName = true ↔ Matches id extension productName := by
  simp [Matches, asksFor_iff, namesFormat]

/-- A name that an identifier can be as it stands. -/
structure Clean (name : String) : Prop where
  bare : Bare name.toList
  noDot : name.toList.head? ≠ some '.'

theorem Clean.asksFor {name : String} (h : Clean name) : AsksFor name name := by
  refine ⟨[], [], [], by simp, by simp, by simp, h.bare, by simp, ?_⟩
  rintro c hc rfl
  exact h.noDot hc

/-- The names match themselves: one of them will do. -/
theorem Clean.matches {id extension productName : String} (h : Clean id)
    (hid : id = extension ∨ id = productName) : Matches id extension productName := by
  have hself (s : String) : equalFolded s s = true := beq_self_eq_true _
  refine ⟨id, h.asksFor, hid.imp ?_ ?_⟩
  all_goals
    rintro rfl
    exact hself _

/-! ### Entries -/

/-- A format that is entered in a catalog. -/
inductive Catalog.Entry
  | input (f : InputFormat)
  | output (f : OutputFormat)

namespace Catalog.Entry

/-- Does the identifier ask for this entry, when an input format is looked up? -/
def ForInput (id : String) : Entry → Prop
  | input f => Matches id f.extension f.productName
  | output _ => False

def ForOutput (id : String) : Entry → Prop
  | input _ => False
  | output f => Matches id f.extension f.productName

def input? : Entry → Option InputFormat
  | input f => some f
  | output _ => none

def output? : Entry → Option OutputFormat
  | input _ => none
  | output f => some f

theorem input?_eq_some (e : Entry) (f : InputFormat) : e.input? = some f ↔ e = .input f := by
  cases e <;> simp [input?]

theorem output?_eq_some (e : Entry) (f : OutputFormat) : e.output? = some f ↔ e = .output f := by
  cases e <;> simp [output?]

theorem forInput_iff (id : String) (e : Entry) : e.ForInput id ↔
    ∃ f, e.input? = some f ∧ namesFormat id f.extension f.productName = true := by
  cases e <;> simp [ForInput, input?, namesFormat_iff]

theorem forOutput_iff (id : String) (e : Entry) : e.ForOutput id ↔
    ∃ f, e.output? = some f ∧ namesFormat id f.extension f.productName = true := by
  cases e <;> simp [ForOutput, output?, namesFormat_iff]

end Catalog.Entry

/-- The last element of a kind. -/
def Latest {α : Type} (P : α → Prop) (l : List α) (a : α) : Prop :=
  ∃ before after, l = before ++ a :: after ∧ P a ∧ ∀ b ∈ after, ¬P b

section LastMatch
variable {α β : Type} {p : α → Bool} {l : List α} {a : α}

/-- A search from the end tries what was added last. -/
theorem find?_reverse_push (p : α → Bool) (l : List α) (a : α) :
    (l ++ [a]).reverse.find? p = if p a then some a else l.reverse.find? p := by
  rw [List.reverse_append, List.reverse_singleton, List.singleton_append, List.find?_cons]
  cases p a <;> rfl

theorem find?_reverse_eq_some_iff : l.reverse.find? p = some a ↔ Latest (p · = true) l a := by
  rw [List.find?_eq_some_iff_append]
  constructor
  · rintro ⟨ha, after, before, hl, hafter⟩
    refine ⟨before.reverse, after.reverse, ?_, ha, by simpa using hafter⟩
    rw [← List.reverse_reverse l, hl]
    simp
  · rintro ⟨before, after, rfl, ha, hafter⟩
    exact ⟨ha, after.reverse, before.reverse, by simp, by simpa using hafter⟩

variable {g : α → Option β} {q : β → Bool} {P : α → Prop}

/-- Where some elements of a list give others, a search among those from the end finds what the last
element of a kind gives. -/
theorem find?_reverse_filterMap_eq_some {mk : β → α} {b : β} (hmk : ∀ a b, g a = some b ↔ a = mk b)
    (hP : ∀ a, P a ↔ ∃ b, g a = some b ∧ q b = true) :
    (l.filterMap g).reverse.find? q = some b ↔ Latest P l (mk b) := by
  have hkind : (fun a => (g a).any q = true) = P := by
    ext a
    simp [hP, Option.any_eq_true]
  rw [← List.filterMap_reverse, List.find?_filterMap, ← hkind]
  simp only [Option.bind_eq_some_iff, find?_reverse_eq_some_iff, hmk]
  exact exists_eq_right

theorem find?_reverse_filterMap_eq_none (hP : ∀ a, P a ↔ ∃ b, g a = some b ∧ q b = true) :
    (l.filterMap g).reverse.find? q = none ↔ ∀ a ∈ l, ¬P a := by
  simp only [List.find?_eq_none, List.mem_reverse, List.mem_filterMap, hP]
  constructor
  · rintro h a ha ⟨b, hb, hq⟩
    exact h b ⟨a, ha, hb⟩ hq
  · rintro h b ⟨a, ha, hb⟩ hq
    exact h a ha ⟨b, hb, hq⟩

end LastMatch

namespace Catalog

def enter (c : Catalog) : Entry → Catalog
  | .input f => c.addInput f
  | .output f => c.addOutput f

/-! ### Single entries -/

/-- What is entered is found for its own names, and changes nothing else. -/
structure EntersLocally (c : Catalog) : Prop where
  input : ∀ (f : InputFormat) id, ¬Matches id f.extension f.productName →
    (c.addInput f).input? id = c.input? id
  output : ∀ (f : OutputFormat) id, ¬Matches id f.extension f.productName →
    (c.addOutput f).output? id = c.output? id
  inputs : ∀ f id, (c.addOutput f).input? id = c.input? id
  outputs : ∀ f id, (c.addInput f).output? id = c.output? id
  inputFound : ∀ f id, id = f.extension ∨ id = f.productName → Clean id →
    (c.addInput f).input? id = some f
  outputFound : ∀ f id, id = f.extension ∨ id = f.productName → Clean id →
    (c.addOutput f).output? id = some f

theorem entersLocally (c : Catalog) : EntersLocally c where
  input _ _ h := (find?_reverse_push ..).trans (if_neg (namesFormat_iff.not.2 h))
  output _ _ h := (find?_reverse_push ..).trans (if_neg (namesFormat_iff.not.2 h))
  inputs _ _ := rfl
  outputs _ _ := rfl
  inputFound _ _ hid hclean :=
    (find?_reverse_push ..).trans (if_pos (namesFormat_iff.2 (hclean.matches hid)))
  outputFound _ _ hid hclean :=
    (find?_reverse_push ..).trans (if_pos (namesFormat_iff.2 (hclean.matches hid)))

/-! ### Histories -/

/-- What is found in a catalog is what its entries say. -/
structure FindsLatest (c : Catalog) (entries : List Entry) : Prop where
  input : ∀ id f, c.input? id = some f ↔ Latest (Entry.ForInput id) entries (.input f)
  noInput : ∀ id, c.input? id = none ↔ ∀ e ∈ entries, ¬e.ForInput id
  output : ∀ id f, c.output? id = some f ↔ Latest (Entry.ForOutput id) entries (.output f)
  noOutput : ∀ id, c.output? id = none ↔ ∀ e ∈ entries, ¬e.ForOutput id

/-- A catalog keeps the formats that its entries give, in their order. -/
theorem foldl_enter (entries : List Entry) (c : Catalog) : entries.foldl enter c =
    ⟨c.inputs ++ entries.filterMap Entry.input?, c.outputs ++ entries.filterMap Entry.output?⟩ := by
  induction entries generalizing c with
  | nil => simp
  | cons e entries ih =>
    rw [List.foldl_cons, ih]
    cases e <;> simp [enter, addInput, addOutput, Entry.input?, Entry.output?, List.filterMap_cons]

theorem findsLatest_filterMap (entries : List Entry) :
    FindsLatest ⟨entries.filterMap Entry.input?, entries.filterMap Entry.output?⟩ entries where
  input id _ := find?_reverse_filterMap_eq_some Entry.input?_eq_some (Entry.forInput_iff id)
  noInput id := find?_reverse_filterMap_eq_none (Entry.forInput_iff id)
  output id _ := find?_reverse_filterMap_eq_some Entry.output?_eq_some (Entry.forOutput_iff id)
  noOutput id := find?_reverse_filterMap_eq_none (Entry.forOutput_iff id)

theorem findsLatest_foldl_enter (entries : List Entry) :
    FindsLatest (entries.foldl enter {}) entries := by
  rw [foldl_enter]
  exact findsLatest_filterMap entries

/-- The formats of this library in the order in which they are entered. -/
def standardEntries (document : Xml.DocumentReader) : List Entry :=
  [.input diagramFormat, .input saveInputFormat, .input (xmlFormatWith document), .output sqlFormat,
    .output saveOutputFormat]

theorem findsLatest_standardWith (document : Xml.DocumentReader) (entries : List Entry) :
    FindsLatest (entries.foldl enter (standardWith document))
      (standardEntries document ++ entries) := by
  have hfinds := findsLatest_foldl_enter (standardEntries document ++ entries)
  rwa [List.foldl_append] at hfinds

/-- Whatever is entered in an empty catalog or in that of all formats: look-ups find the entry that
was made last of those that an identifier asks for, and each further entry is found for its own names
and changes nothing else. -/
theorem lookups_latest (document : Xml.DocumentReader) (entries : List Entry) :
    FindsLatest (entries.foldl enter {}) entries ∧
      FindsLatest (entries.foldl enter (standardWith document))
        (standardEntries document ++ entries) ∧
      EntersLocally (entries.foldl enter {}) ∧
      EntersLocally (entries.foldl enter (standardWith document)) :=
  ⟨findsLatest_foldl_enter entries, findsLatest_standardWith document entries, entersLocally _,
    entersLocally _⟩

/-- Blanks go before dots do, and case does not count. -/
example : standard.input? " .EDG\t" = some diagramFormat ∧ standard.output? "mysql" = some sqlFormat :=
  ⟨rfl, rfl⟩

end Catalog
end Schemata
