import Mathlib.Data.List.TakeWhile

/-!
# Texts that can be read off

A text is read from the left. Where it ends is not marked as a rule, but told by the character that
comes next. Texts that can be read off with anything after them that starts with such a character
make up lists that can be read off.
-/
namespace Schemata
variable {α : Type} {P : α → Prop} {write : α → String} {next next' start : Char → Prop}

/-- What a text starts with, unless it is empty. -/
def GoesOn (next : Char → Prop) (rest : String) : Prop := ∀ c ∈ rest.toList.head?, next c

/-- What a text starts with that is not empty. -/
def Starts (start : Char → Prop) (text : String) : Prop := ∃ c ∈ text.toList.head?, start c

/-- A value can be read off its text, with whatever stands after it, as long as this goes on with
one of certain characters. -/
def Legible (P : α → Prop) (write : α → String) (next : Char → Prop) : Prop :=
  ∀ a b, P a → P b → ∀ r r', GoesOn next r → GoesOn next r' → write a ++ r = write b ++ r' →
    a = b ∧ r = r'

/-! ### Next characters -/

theorem goesOn_empty : GoesOn next "" := by
  intro c hc
  cases hc

theorem GoesOn.mono {rest : String} (h : GoesOn next rest) (hnext : ∀ c, next c → next' c) :
    GoesOn next' rest := fun c hc => hnext c (h c hc)

theorem GoesOn.append {text rest : String} (h : GoesOn next text) (hrest : GoesOn next rest) :
    GoesOn next (text ++ rest) := by
  intro c hc
  rw [String.toList_append, List.head?_append, Option.mem_def, Option.or_eq_some_iff] at hc
  exact hc.elim (h c) fun hc => hrest c hc.2

theorem Starts.append {text : String} (h : Starts start text) (rest : String) :
    Starts start (text ++ rest) := by
  obtain ⟨c, hc, hstart⟩ := h
  refine ⟨c, ?_, hstart⟩
  rw [String.toList_append, List.head?_append, Option.mem_def.1 hc]
  rfl

theorem Starts.goesOn {text : String} (h : Starts start text) (hnext : ∀ c, start c → next c) :
    GoesOn next text := by
  obtain ⟨c, hc, hstart⟩ := h
  intro c' hc'
  cases Option.mem_unique hc hc'
  exact hnext c hstart

theorem Starts.goesOn_append {mark : String} (h : Starts next mark) (rest : String) :
    GoesOn next (mark ++ rest) := (h.append rest).goesOn fun _ hc => hc

theorem Starts.not_goesOn {text : String} (h : Starts start text) (hnext : ∀ c, next c → ¬start c) :
    ¬GoesOn next text := by
  obtain ⟨c, hc, hstart⟩ := h
  exact fun hgoes => hnext c (hgoes c hc) hstart

theorem starts_of_forall {text : String} (hne : text ≠ "") (h : ∀ c ∈ text.toList, start c) :
    Starts start text := by
  cases hlist : text.toList with
  | nil => exact absurd (String.toList_eq_nil_iff.1 hlist) hne
  | cons c tail => exact ⟨c, by rw [hlist]; rfl, h c (by simp [hlist])⟩

/-! ### Parts -/

theorem Legible.after (h : Legible P write next) (before : String) :
    Legible P (before ++ write ·) next := by
  intro a b ha hb r r' hr hr' he
  rw [String.append_assoc, String.append_assoc, String.append_right_inj] at he
  exact h a b ha hb r r' hr hr' he

/-- A text of characters of one kind ends where a character of another kind comes. -/
theorem legible_of_kind (kind : Char → Prop) :
    Legible (fun text : String => ∀ c ∈ text.toList, kind c) id (¬kind ·) := by
  classical
  have hread {text r : String} (htext : ∀ c ∈ text.toList, kind c) (hr : GoesOn (¬kind ·) r) :
      (text.toList ++ r.toList).takeWhile (decide <| kind ·) = text.toList := by
    rw [List.takeWhile_append_of_pos fun c hc => decide_eq_true (htext c hc)]
    cases hlist : r.toList with
    | nil => simp
    | cons c tail =>
      have hc : ¬kind c := hr c (by rw [hlist]; rfl)
      simp [hc]
  intro a b ha hb r r' hr hr' he
  have hlist : a.toList ++ r.toList = b.toList ++ r'.toList := by
    rw [← String.toList_append, ← String.toList_append]
    exact congrArg String.toList he
  have hab : a = b := by
    rw [← String.toList_inj, ← hread ha hr, hlist, hread hb hr']
  subst hab
  exact ⟨rfl, (String.append_right_inj a).1 he⟩

/-! ### Lists -/

theorem goesOn_join {l : List α} {rest : String} (hstart : ∀ a ∈ l, Starts start (write a))
    (hnext : ∀ c, start c → next c) (hrest : GoesOn next rest) :
    GoesOn next (String.join (l.map write) ++ rest) := by
  cases l with
  | nil => simpa using hrest
  | cons a l =>
    rw [List.map_cons, String.join_cons, String.append_assoc]
    exact ((hstart a List.mem_cons_self).append _).goesOn hnext

/-- Texts one after the other, if each tells the end of the one before it and the end of all is
told from one more. -/
theorem Legible.join (h : Legible P write next) (hstart : ∀ a, P a → Starts start (write a))
    (hnext : ∀ c, start c → next c) (hend : ∀ c, next' c → next c ∧ ¬start c) :
    Legible (fun l : List α => ∀ a ∈ l, P a) (fun l => String.join (l.map write)) next' := by
  -- one more text on one side only
  have hmore {a : α} (ha : P a) {l : List α} {r r' : String} (hr' : GoesOn next' r') :
      String.join ((a :: l).map write) ++ r ≠ r' := by
    rintro rfl
    rw [List.map_cons, String.join_cons, String.append_assoc] at hr'
    exact ((hstart a ha).append _).not_goesOn (fun c hc => (hend c hc).2) hr'
  intro l l' hl hl' r r' hr hr' he
  induction l generalizing l' with
  | nil =>
    cases l' with
    | nil => exact ⟨rfl, by simpa using he⟩
    | cons b l' => exact absurd (by simpa using he.symm) (hmore (hl' b List.mem_cons_self) hr)
  | cons a l ih =>
    obtain ⟨ha, htail⟩ := List.forall_mem_cons.1 hl
    cases l' with
    | nil => exact absurd (by simpa using he) (hmore ha hr')
    | cons b l' =>
      obtain ⟨hb, htail'⟩ := List.forall_mem_cons.1 hl'
      have hgoes {l : List α} (hl : ∀ a ∈ l, P a) {r : String} (hr : GoesOn next' r) :
          GoesOn next (String.join (l.map write) ++ r) :=
        goesOn_join (fun a ha => hstart a (hl a ha)) hnext (hr.mono fun c hc => (hend c hc).1)
      simp only [List.map_cons, String.join_cons, String.append_assoc] at he
      obtain ⟨hhead, hrest⟩ := h a b ha hb _ _ (hgoes htail hr) (hgoes htail' hr') he
      obtain ⟨hlist, hrest⟩ := ih l' htail htail' hrest
      exact ⟨by rw [hhead, hlist], hrest⟩

theorem intercalate_cons (mark text : String) (l : List String) :
    mark.intercalate (text :: l) = text ++ String.join (l.map (mark ++ ·)) := by
  induction l generalizing text with
  | nil => simp
  | cons text' l ih =>
    rw [String.intercalate_cons_cons, ih, List.map_cons, String.join_cons, String.append_assoc,
      String.append_assoc]

/-- Texts with a mark between any two. -/
theorem Legible.intercalate (h : Legible P write next) (hstart : ∀ a, P a → Starts start (write a))
    {between : Char → Prop} {mark : String} (hmark : Starts between mark)
    (hnext : ∀ c, between c → next c)
    (hend : ∀ c, next' c → next c ∧ ¬between c ∧ ¬start c) :
    Legible (fun l : List α => ∀ a ∈ l, P a) (fun l => mark.intercalate (l.map write)) next' := by
  have hcons (a : α) (l : List α) (r : String) : mark.intercalate ((a :: l).map write) ++ r =
      write a ++ (String.join (l.map (mark ++ write ·)) ++ r) := by
    rw [List.map_cons, intercalate_cons, List.map_map, String.append_assoc]
    rfl
  have hfirst {a : α} (ha : P a) {l : List α} {r r' : String} (hr' : GoesOn next' r') :
      mark.intercalate ((a :: l).map write) ++ r ≠ r' := by
    rintro rfl
    rw [hcons] at hr'
    exact ((hstart a ha).append _).not_goesOn (fun c hc => (hend c hc).2.2) hr'
  have hmarked (a : α) : Starts between (mark ++ write a) := hmark.append _
  have hgoes (l : List α) {r : String} (hr : GoesOn next' r) :
      GoesOn next (String.join (l.map (mark ++ write ·)) ++ r) :=
    goesOn_join (fun a _ => hmarked a) hnext (hr.mono fun c hc => (hend c hc).1)
  have hrest := (h.after mark).join (fun a _ => hmarked a) hnext fun c hc =>
    ⟨(hend c hc).1, (hend c hc).2.1⟩
  intro l l' hl hl' r r' hr hr' he
  match l, l' with
  | [], [] => exact ⟨rfl, by simpa using he⟩
  | [], b :: l' => exact absurd (by simpa using he.symm) (hfirst (hl' b List.mem_cons_self) hr)
  | a :: l, [] => exact absurd (by simpa using he) (hfirst (hl a List.mem_cons_self) hr')
  | a :: l, b :: l' =>
    obtain ⟨ha, htail⟩ := List.forall_mem_cons.1 hl
    obtain ⟨hb, htail'⟩ := List.forall_mem_cons.1 hl'
    simp only [hcons] at he
    obtain ⟨hhead, he⟩ := h a b ha hb _ _ (hgoes l hr) (hgoes l' hr') he
    obtain ⟨hlist, he⟩ := hrest l l' htail htail' r r' hr hr' he
    exact ⟨by rw [hhead, hlist], he⟩

end Schemata
