import Schemata.Proofs.Ddl.Items
import Schemata.Proofs.Legible
import Schemata.Text.Number

/-!
# Reading definitions off a script

Names that are words end where no word goes on. So the two words that an item starts with can be
read off it: the second one is the name of a type in a column, and of a constraint in a constraint,
even where the first one is the same.
-/
namespace Schemata.Ddl

attribute [ext] Column ForeignKey CreateTable Script

/-! ### Words -/

/-- A letter, a digit or an underscore. -/
def WordChar (c : Char) : Prop := c.isAlphanum = true ∨ c = '_'

instance : DecidablePred WordChar := fun c =>
  inferInstanceAs (Decidable (c.isAlphanum = true ∨ c = '_'))

def IsWord (text : String) : Prop := text ≠ "" ∧ ∀ c ∈ text.toList, WordChar c

instance : DecidablePred IsWord := fun text =>
  decidable_of_iff (text ≠ "" ∧ text.toList.all (WordChar ·) = true) (by simp [IsWord])

theorem IsWord.starts {text : String} (h : IsWord text) : Starts WordChar text :=
  starts_of_forall h.1 h.2

theorem IsWord.append {a b : String} (ha : IsWord a) (hb : IsWord b) : IsWord (a ++ b) := by
  refine ⟨by simp [ha.1], fun c hc => ?_⟩
  rw [String.toList_append, List.mem_append] at hc
  exact hc.elim (ha.2 c) (hb.2 c)

theorem isWord_toString (n : Nat) : IsWord (toString n) := by
  rw [Nat.toString_eq_repr]
  refine ⟨Nat.repr_ne_empty, fun c hc => ?_⟩
  rw [Nat.toList_repr] at hc
  have hdigit : c.isDigit = true := Text.isDigit_of_mem_decimal hc
  exact .inl (by simp [Char.isAlphanum, hdigit])

theorem toString_inj {m n : Nat} (h : toString m = toString n) : m = n := by
  have hdigits : Nat.toDigits 10 m = Nat.toDigits 10 n := by
    simpa [Nat.toString_eq_ofList_toDigits] using congrArg String.toList h
  rw [← Nat.ofDigitChars_ten_toDigits (n := m), hdigits, Nat.ofDigitChars_ten_toDigits]

theorem legible_word : Legible IsWord id (¬WordChar ·) := fun a b ha hb =>
  legible_of_kind WordChar a b ha.2 hb.2

/-- Words with commas between them, before what closes the list. -/
theorem legible_names : Legible (fun names : List String => ∀ name ∈ names, IsWord name)
    (", ".intercalate ·) (· = ')') := by
  have hcomma : Starts (· = ',') ", " := ⟨',', by simp, rfl⟩
  have h : Legible (fun names : List String => ∀ name ∈ names, IsWord name)
      (fun names => ", ".intercalate (names.map id)) (· = ')') :=
    legible_word.intercalate (fun name hname => hname.starts) hcomma (by rintro c rfl; decide)
      (by rintro c rfl; decide)
  simpa using h

theorem isWord_sqlName (type : DataType) : IsWord type.sqlName := by
  cases type <;> decide

theorem underscore_not_mem_sqlName (type : DataType) : '_' ∉ type.sqlName.toList := by
  cases type <;> decide

theorem sqlName_inj {a b : DataType} (h : a.sqlName = b.sqlName) : a = b := by
  cases a <;> cases b <;> first | rfl | exact absurd h (by decide)

/-- A word before a mark that no word has. -/
theorem word_inj {mark a b r r' : String} (hmark : Starts (¬WordChar ·) mark) (ha : IsWord a)
    (hb : IsWord b) (h : a ++ (mark ++ r) = b ++ (mark ++ r')) : a = b ∧ r = r' := by
  obtain ⟨hword, hrest⟩ := legible_word a b ha hb _ _ (hmark.goesOn_append r)
    (hmark.goesOn_append r') h
  exact ⟨hword, (String.append_right_inj mark).1 hrest⟩

/-! ### Columns -/

/-- A column that can be read off its text: a length is only there if the text has it. -/
structure Column.Plain (c : Column) : Prop where
  name : IsWord c.name
  length : c.type.hasLength = false → c.length = 0
  default : c.default = none

/-- What ends an item. -/
def Ends (c : Char) : Prop := c = ',' ∨ c = '\r'

def lengthText (c : Column) : String :=
  if c.type.hasLength then "(" ++ toString c.length.toNat ++ ")" else ""

def flagText (flags : Bool × Bool) : String :=
  (if flags.1 then " NOT NULL" else "") ++ (if flags.2 then " AUTO_INCREMENT" else "")

theorem typeText_eq (c : Column) : typeText c = c.type.sqlName ++ lengthText c := by
  unfold typeText lengthText
  split <;> simp [String.append_assoc]

theorem columnText_eq {c : Column} (h : c.default = none) : columnText c =
    "\t" ++ c.name ++ " " ++ c.type.sqlName ++
      (lengthText c ++ flagText (c.notNull, c.autoIncrement)) := by
  unfold columnText flagText
  rw [typeText_eq, h]
  simp [String.append_assoc]

theorem goesOn_lengthText (c : Column) : GoesOn (¬WordChar ·) (lengthText c) := by
  have hmark : Starts (¬WordChar ·) "(" := ⟨'(', by simp, by decide⟩
  unfold lengthText
  split
  · rw [String.append_assoc]
    exact hmark.goesOn_append _
  · exact goesOn_empty

theorem goesOn_flagText (flags : Bool × Bool) : GoesOn (¬WordChar ·) (flagText flags) := by
  have hflag (on : Bool) {text : String} (hblank : ' ' ∈ text.toList.head?) :
      GoesOn (¬WordChar ·) (if on then text else "") := by
    cases on
    · exact goesOn_empty
    · exact Starts.goesOn ⟨' ', hblank, by decide⟩ fun _ hc => hc
  exact (hflag _ (by simp)).append (hflag _ (by simp))

theorem not_wordChar_of_ends {c : Char} (h : Ends c) : ¬WordChar c := by
  rcases h with rfl | rfl <;> decide

/-- A mark that is there or not, before what cannot be taken for it. -/
theorem optional_inj {mark rest rest' : String} {b b' : Bool} (hrest : ∀ more, rest ≠ mark ++ more)
    (hrest' : ∀ more, rest' ≠ mark ++ more)
    (h : (if b then mark else "") ++ rest = (if b' then mark else "") ++ rest') :
    b = b' ∧ rest = rest' := by
  cases b <;> cases b'
  · exact ⟨rfl, by simpa using h⟩
  · exact absurd (by simpa using h) (hrest rest')
  · exact absurd (by simpa using h.symm) (hrest' rest)
  · exact ⟨rfl, by simpa using h⟩

theorem legible_flags : Legible (fun _ => True) flagText Ends := by
  have hend {rest : String} (h : GoesOn Ends rest) (more : String) : rest ≠ " " ++ more := by
    rintro rfl
    have hblank : Ends ' ' := h ' ' (by simp)
    revert hblank
    unfold Ends
    decide
  have hcount {rest : String} (h : GoesOn Ends rest) (more : String) :
      rest ≠ " AUTO_INCREMENT" ++ more := by
    simpa [← String.append_assoc] using hend h ("AUTO_INCREMENT" ++ more)
  have hnull {flag : Bool} {rest : String} (h : GoesOn Ends rest) (more : String) :
      (if flag then " AUTO_INCREMENT" else "") ++ rest ≠ " NOT NULL" ++ more := by
    cases flag
    · simpa [← String.append_assoc] using hend h ("NOT NULL" ++ more)
    · simp [← String.toList_inj]
  rintro ⟨a, a'⟩ ⟨b, b'⟩ - - r r' hr hr' he
  rw [flagText, flagText, String.append_assoc, String.append_assoc] at he
  obtain ⟨hnot, he⟩ := optional_inj (hnull hr) (hnull hr') he
  obtain ⟨hauto, he⟩ := optional_inj (hcount hr) (hcount hr') he
  exact ⟨Prod.ext hnot hauto, he⟩

theorem lengthText_inj {a b : Column} (htype : a.type = b.type) (ha : a.Plain) (hb : b.Plain)
    {r r' : String} (h : lengthText a ++ r = lengthText b ++ r') :
    a.length = b.length ∧ r = r' := by
  cases hlength : a.type.hasLength with
  | false =>
    rw [ha.length hlength, hb.length (htype ▸ hlength)]
    simpa [lengthText, hlength, ← htype] using h
  | true =>
    simp only [lengthText, ← htype, hlength, if_true, String.append_assoc,
      String.append_right_inj] at h
    obtain ⟨hnumber, hrest⟩ := word_inj ⟨')', by simp, by decide⟩ (isWord_toString _)
      (isWord_toString _) h
    exact ⟨UInt32.toNat_inj.1 (toString_inj hnumber), hrest⟩

theorem column_inj {c d : Column} (hc : c.Plain) (hd : d.Plain) (hname : c.name = d.name)
    (htype : c.type = d.type) {r r' : String} (hr : GoesOn Ends r) (hr' : GoesOn Ends r')
    (h : lengthText c ++ (flagText (c.notNull, c.autoIncrement) ++ r) =
      lengthText d ++ (flagText (d.notNull, d.autoIncrement) ++ r')) : c = d ∧ r = r' := by
  obtain ⟨hlength, h⟩ := lengthText_inj htype hc hd h
  obtain ⟨hflags, h⟩ := legible_flags _ _ trivial trivial r r' hr hr' h
  obtain ⟨hnull, hcount⟩ := Prod.mk.inj hflags
  have hdefault : c.default = d.default := hc.default.trans hd.default.symm
  exact ⟨Column.ext hname htype hlength hnull hdefault hcount, h⟩

/-! ### Constraints -/

theorem key_inj {columns columns' : List String} (h : ∀ name ∈ columns, IsWord name)
    (h' : ∀ name ∈ columns', IsWord name) {r r' : String}
    (he : ", ".intercalate columns ++ (")" ++ r) = ", ".intercalate columns' ++ (")" ++ r')) :
    columns = columns' ∧ r = r' := by
  have hclosing : Starts (· = ')') ")" := ⟨')', by simp, rfl⟩
  obtain ⟨hcolumns, he⟩ := legible_names columns columns' h h' _ _ (hclosing.goesOn_append r)
    (hclosing.goesOn_append r') he
  exact ⟨hcolumns, (String.append_right_inj ")").1 he⟩

structure ForeignKey.Plain (k : ForeignKey) : Prop where
  column : IsWord k.column
  table : IsWord k.table
  target : IsWord k.target

theorem foreignKey_inj {k l : ForeignKey} (hk : k.Plain) (hl : l.Plain)
    (hnumber : k.number = l.number) {r r' : String}
    (h : k.column ++ (") REFERENCES " ++ (k.table ++ ("(" ++ (k.target ++ (")" ++ r))))) =
      l.column ++ (") REFERENCES " ++ (l.table ++ ("(" ++ (l.target ++ (")" ++ r')))))) :
    k = l ∧ r = r' := by
  obtain ⟨hcolumn, h⟩ := word_inj ⟨')', by simp, by decide⟩ hk.column hl.column h
  obtain ⟨htable, h⟩ := word_inj ⟨'(', by simp, by decide⟩ hk.table hl.table h
  obtain ⟨htarget, h⟩ := word_inj ⟨')', by simp, by decide⟩ hk.target hl.target h
  exact ⟨ForeignKey.ext hnumber hcolumn htable htarget, h⟩

theorem sqlName_ne_primaryKeyName (type : DataType) (table : String) :
    type.sqlName ≠ primaryKeyName table := fun h =>
  underscore_not_mem_sqlName type (by simp [h, primaryKeyName])

theorem sqlName_ne_foreignKeyName (type : DataType) (table : String) (n : Nat) :
    type.sqlName ≠ foreignKeyName table n := fun h =>
  underscore_not_mem_sqlName type (by simp [h, foreignKeyName])

theorem primaryKeyName_ne_foreignKeyName (table : String) (n : Nat) :
    primaryKeyName table ≠ foreignKeyName table n := by
  simp [primaryKeyName, foreignKeyName, ← String.toList_inj]

theorem foreignKeyName_inj {table : String} {m n : Nat}
    (h : foreignKeyName table m = foreignKeyName table n) : m = n :=
  toString_inj ((String.append_right_inj (table ++ "_FK")).1 h)

/-! ### Items -/

namespace Item

def Plain : Item → Prop
  | column c => c.Plain
  | primaryKey columns => ∀ name ∈ columns, IsWord name
  | foreignKey k => k.Plain

/-- The word that the text of an item starts with. -/
def lead : Item → String
  | column c => c.name
  | _ => "CONSTRAINT"

/-- The word after it: the name of a type or of a constraint. -/
def label (table : String) : Item → String
  | column c => c.type.sqlName
  | primaryKey _ => primaryKeyName table
  | foreignKey k => foreignKeyName table k.number

def body : Item → String
  | column c => lengthText c ++ flagText (c.notNull, c.autoIncrement)
  | primaryKey columns => " PRIMARY KEY (" ++ ", ".intercalate columns ++ ")"
  | foreignKey k =>
    " FOREIGN KEY(" ++ k.column ++ ") REFERENCES " ++ k.table ++ "(" ++ k.target ++ ")"

theorem text_eq {i : Item} (h : i.Plain) (table : String) :
    i.text table = "\t" ++ i.lead ++ " " ++ i.label table ++ i.body := by
  cases i with
  | column c => exact columnText_eq h.default
  | primaryKey columns =>
    unfold text lead label body primaryKeyText
    simp [String.append_assoc]
  | foreignKey k =>
    unfold text lead label body foreignKeyText
    simp [String.append_assoc]

theorem isWord_lead {i : Item} (h : i.Plain) : IsWord i.lead := by
  cases i with
  | column c => exact h.name
  | primaryKey columns => exact (by decide : IsWord "CONSTRAINT")
  | foreignKey k => exact (by decide : IsWord "CONSTRAINT")

theorem isWord_label {table : String} (htable : IsWord table) (i : Item) :
    IsWord (i.label table) := by
  cases i with
  | column c => exact isWord_sqlName c.type
  | primaryKey columns => exact htable.append (by decide)
  | foreignKey k => exact (htable.append (by decide)).append (isWord_toString k.number)

/-- The label of an item ends before its body, even if that is empty. -/
theorem goesOn_body (i : Item) {rest : String} (h : GoesOn Ends rest) :
    GoesOn (¬WordChar ·) (i.body ++ rest) := by
  have hmark (text more : String) (hblank : ' ' ∈ text.toList.head?) :
      GoesOn (¬WordChar ·) (text ++ more) :=
    Starts.goesOn_append ⟨' ', hblank, by decide⟩ more
  refine GoesOn.append ?_ (h.mono fun c => not_wordChar_of_ends)
  cases i with
  | column c => exact (goesOn_lengthText c).append (goesOn_flagText _)
  | primaryKey columns =>
    unfold body
    simp only [String.append_assoc]
    exact hmark _ _ (by simp)
  | foreignKey k =>
    unfold body
    simp only [String.append_assoc]
    exact hmark _ _ (by simp)

/-- The label tells the kind of an item: no type is called like a constraint, and no key like a
reference. -/
theorem body_inj {table : String} {i j : Item} (hi : i.Plain) (hj : j.Plain)
    (hlead : i.lead = j.lead) (hlabel : i.label table = j.label table) {r r' : String}
    (hr : GoesOn Ends r) (hr' : GoesOn Ends r') (h : i.body ++ r = j.body ++ r') :
    i = j ∧ r = r' := by
  unfold body at h
  cases i with
  | column c =>
    cases j with
    | column d =>
      simp only [String.append_assoc] at h
      exact (column_inj hi hj hlead (sqlName_inj hlabel) hr hr' h).imp_left (congrArg column)
    | primaryKey _ => exact absurd hlabel (sqlName_ne_primaryKeyName _ _)
    | foreignKey _ => exact absurd hlabel (sqlName_ne_foreignKeyName _ _ _)
  | primaryKey columns =>
    cases j with
    | column _ => exact absurd hlabel.symm (sqlName_ne_primaryKeyName _ _)
    | primaryKey columns' =>
      simp only [String.append_assoc, String.append_right_inj] at h
      exact (key_inj hi hj h).imp_left (congrArg primaryKey)
    | foreignKey _ => exact absurd hlabel (primaryKeyName_ne_foreignKeyName _ _)
  | foreignKey k =>
    cases j with
    | column _ => exact absurd hlabel.symm (sqlName_ne_foreignKeyName _ _ _)
    | primaryKey _ => exact absurd hlabel.symm (primaryKeyName_ne_foreignKeyName _ _)
    | foreignKey l =>
      simp only [String.append_assoc, String.append_right_inj] at h
      exact (foreignKey_inj hi hj (foreignKeyName_inj hlabel) h).imp_left (congrArg foreignKey)

/-! What a table has of each kind is what its items are of this kind. -/

def column? : Item → Option Column
  | column c => some c
  | _ => none

def key : Item → List String
  | primaryKey columns => columns
  | _ => []

def foreignKey? : Item → Option ForeignKey
  | foreignKey k => some k
  | _ => none

end Item

theorem legible_item {table : String} (htable : IsWord table) :
    Legible Item.Plain (Item.text table) Ends := by
  intro i j hi hj r r' hr hr' he
  rw [Item.text_eq hi, Item.text_eq hj] at he
  simp only [String.append_assoc, String.append_right_inj] at he
  obtain ⟨hlead, he⟩ := word_inj ⟨' ', by simp, by decide⟩ (Item.isWord_lead hi)
    (Item.isWord_lead hj) he
  obtain ⟨hlabel, he⟩ := legible_word _ _ (Item.isWord_label htable i) (Item.isWord_label htable j)
    _ _ (Item.goesOn_body i hr) (Item.goesOn_body j hr') he
  exact Item.body_inj hi hj hlead hlabel hr hr' he

theorem Item.starts_text {i : Item} (h : i.Plain) (table : String) :
    Starts (· = '\t') (i.text table) := by
  have htab : Starts (· = '\t') "\t" := ⟨'\t', by simp, rfl⟩
  rw [text_eq h]
  simp only [String.append_assoc]
  exact htab.append _

theorem legible_items {table : String} (htable : IsWord table) :
    Legible (fun items : List Item => ∀ i ∈ items, i.Plain)
      (fun items => separator.intercalate (items.map (Item.text table))) (· = '\r') := by
  have hcomma : Starts (· = ',') "," := ⟨',', by simp, rfl⟩
  exact (legible_item htable).intercalate (fun i hi => Item.starts_text hi table)
    (hcomma.append lineEnd) (fun c hc => .inl hc)
    (by rintro c rfl; exact ⟨.inr rfl, by decide, by decide⟩)

/-! ### Tables -/

namespace CreateTable

structure Plain (t : CreateTable) : Prop where
  name : IsWord t.name
  columns : ∀ c ∈ t.columns, c.Plain
  primaryKey : ∀ name ∈ t.primaryKey, IsWord name
  foreignKeys : ∀ k ∈ t.foreignKeys, k.Plain
  founded : t.Founded

theorem Plain.items {t : CreateTable} (h : t.Plain) : ∀ i ∈ t.items, i.Plain := by
  intro i hi
  rcases List.mem_append.1 hi with hi | hi
  · rcases List.mem_append.1 hi with hi | hi
    · obtain ⟨c, hc, rfl⟩ := List.mem_map.1 hi
      exact h.columns c hc
    · rw [keyItems] at hi
      split at hi
      · cases hi
      · rw [List.mem_singleton.1 hi]
        exact h.primaryKey
  · obtain ⟨k, hk, rfl⟩ := List.mem_map.1 hi
    exact h.foreignKeys k hk

theorem columns_items (t : CreateTable) : t.items.filterMap Item.column? = t.columns := by
  have hkey : t.keyItems.filterMap Item.column? = [] := by
    unfold keyItems
    split <;> rfl
  simp [items, List.filterMap_append, List.filterMap_map, hkey, Function.comp_def, Item.column?]

theorem primaryKey_items (t : CreateTable) : t.items.flatMap Item.key = t.primaryKey := by
  have hkey : t.keyItems.flatMap Item.key = t.primaryKey := by
    unfold keyItems
    split
    · rename_i h
      exact h.symm
    · exact List.append_nil _
  have hnone {α : Type} (l : List α) : (l.flatMap fun _ => ([] : List String)) = [] :=
    List.flatMap_eq_nil_iff.2 fun _ _ => rfl
  simp [items, List.flatMap_append, List.flatMap_map, hkey, Item.key, hnone]

theorem foreignKeys_items (t : CreateTable) :
    t.items.filterMap Item.foreignKey? = t.foreignKeys := by
  have hkey : t.keyItems.filterMap Item.foreignKey? = [] := by
    unfold keyItems
    split <;> rfl
  simp [items, List.filterMap_append, List.filterMap_map, hkey, Function.comp_def, Item.foreignKey?]

theorem eq_of_items {t u : CreateTable} (hname : t.name = u.name) (hitems : t.items = u.items) :
    t = u := by
  have hcolumns : t.columns = u.columns := by rw [← columns_items, hitems, columns_items]
  have hkey : t.primaryKey = u.primaryKey := by rw [← primaryKey_items, hitems, primaryKey_items]
  have hreferences : t.foreignKeys = u.foreignKeys := by
    rw [← foreignKeys_items, hitems, foreignKeys_items]
  exact CreateTable.ext hname hcolumns hkey hreferences

end CreateTable

theorem legible_table : Legible CreateTable.Plain tableText fun _ => True := by
  have hend : Starts (· = '\r') lineEnd := ⟨'\r', by simp [lineEnd], rfl⟩
  intro t u ht hu r r' _ _ he
  rw [tableText_eq ht.founded, tableText_eq hu.founded] at he
  simp only [String.append_assoc, String.append_right_inj] at he
  obtain ⟨hname, he⟩ := word_inj ⟨' ', by simp, by decide⟩ ht.name hu.name he
  rw [hname, String.append_right_inj] at he
  obtain ⟨hitems, he⟩ := legible_items hu.name _ _ ht.items hu.items _ _ (hend.goesOn_append _)
    (hend.goesOn_append _) he
  exact ⟨t.eq_of_items hname hitems, by simpa only [String.append_right_inj] using he⟩

/-! ### Scripts -/

structure Script.Plain (script : Script) : Prop where
  database : IsWord script.database
  tables : ∀ t ∈ script.tables, t.Plain

theorem starts_tableText (t : CreateTable) : Starts (· = 'C') (tableText t) := by
  have hcreate : Starts (· = 'C') "CREATE TABLE " := ⟨'C', by simp, rfl⟩
  unfold tableText
  simp only [String.append_assoc]
  exact hcreate.append _

theorem scriptText_inj {script script' : Script} (h : script.Plain) (h' : script'.Plain)
    (he : scriptText script = scriptText script') : script = script' := by
  unfold scriptText at he
  simp only [String.append_assoc, String.append_right_inj] at he
  obtain ⟨hdatabase, he⟩ := word_inj ⟨';', by simp, by decide⟩ h.database h'.database he
  rw [hdatabase] at he
  simp only [String.append_right_inj] at he
  have hlegible : Legible (fun tables : List CreateTable => ∀ t ∈ tables, t.Plain)
      (fun tables => String.join (tables.map tableText)) (· ≠ 'C') :=
    legible_table.join (fun t _ => starts_tableText t) (fun _ _ => trivial) fun _ hc =>
      ⟨trivial, hc⟩
  obtain ⟨htables, -⟩ := hlegible _ _ h.tables h'.tables "" "" goesOn_empty goesOn_empty
    (congrArg (· ++ "") he)
  exact Script.ext hdatabase htables

end Schemata.Ddl
