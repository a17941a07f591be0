import Schemata.Format.BuildError
import Schemata.Format.ParseError
import Schemata.Format.Report
import Mathlib.Data.List.Forall2

/-!
# Accepted outcomes

A computation that may refuse is accepted exactly if each of its parts is.
-/
namespace Schemata
variable {ε ε' α β σ : Type}

theorem bind_eq_ok {x : Except ε α} {f : α → Except ε β} {b : β} :
    (x >>= f) = .ok b ↔ ∃ a, x = .ok a ∧ f a = .ok b := by
  cases x with
  | error e => simp [bind, Except.bind]
  | ok a => simp [bind, Except.bind]

theorem map_eq_ok {x : Except ε α} {f : α → β} {b : β} :
    x.map f = .ok b ↔ ∃ a, x = .ok a ∧ f a = b := by
  cases x with
  | error e => simp [Except.map]
  | ok a => simp [Except.map]

theorem mapError_eq_ok {x : Except ε α} {f : ε → ε'} {a : α} :
    x.mapError f = .ok a ↔ x = .ok a := by
  cases x with
  | error e => simp [Except.mapError]
  | ok b => simp [Except.mapError]

theorem pure_eq_ok {a b : α} : (pure a : Except ε α) = .ok b ↔ b = a :=
  ⟨fun h => (Except.ok.inj h).symm, fun h => h ▸ rfl⟩

theorem accepted_eq_ok {answer : Except SchemaError α} {a : α} :
    accepted answer = .ok a ↔ answer = .ok a := mapError_eq_ok

theorem eq_ok_of_toOption {x : Except ε α} {a : α} (h : x.toOption = some a) : x = .ok a := by
  cases x with
  | error e => cases h
  | ok b => exact congrArg Except.ok (Option.some.inj h)

theorem recorded_eq_ok {o : Option α} {a : α} : recorded o = .ok a ↔ o = some a := by
  cases o <;> simp [recorded]

theorem writtenTable_eq_ok {s : Schema} {id : TableId} {t : Table} :
    s.writtenTable id = .ok t ↔ s.table? id = some t := by
  unfold Schema.writtenTable
  cases s.table? id <;> simp

theorem writtenField_eq_ok {s : Schema} {f : FieldId} {a : Field} :
    s.writtenField f = .ok a ↔ s.field? f = some a := by
  unfold Schema.writtenField
  cases s.field? f <;> simp

theorem foldlM_cons_of_ok {f : β → α → Except ε β} {b b' : β} {a : α} (h : f b a = .ok b')
    (l : List α) : (a :: l).foldlM f b = l.foldlM f b' := by
  rw [List.foldlM_cons, h]
  rfl

theorem outcome_bind_eq_ok {r : Report ε α} {next : α → Report ε β} {b : β} :
    (r >>= next).outcome = .ok b ↔ ∃ a, r.outcome = .ok a ∧ (next a).outcome = .ok b := by
  change (r.bind next).outcome = .ok b ↔ _
  unfold Report.bind
  cases r.outcome <;> simp

theorem liftM_bind_of_ok {x : Except ε α} {a : α} (hx : x = .ok a) (next : α → Report ε β) :
    ((liftM x : Report ε α) >>= next) = next a := by
  subst hx
  change Report.bind ⟨.ok a, []⟩ next = next a
  simp [Report.bind]

/-- What each accepted step keeps, a whole accepted run keeps. -/
theorem foldlM_invariant {f : β → α → Except ε β} {P : β → Prop}
    (hf : ∀ b a b', P b → f b a = .ok b' → P b') {l : List α} {b b' : β} (hb : P b)
    (h : l.foldlM f b = .ok b') : P b' := by
  induction l generalizing b with
  | nil =>
    cases h
    exact hb
  | cons a l ih =>
    rw [List.foldlM_cons, bind_eq_ok] at h
    obtain ⟨c, hc, h⟩ := h
    exact ih (hf b a c hb hc) h

/-- Of an accepted run, each element was accepted at some point. -/
theorem exists_of_foldlM {f : β → α → Except ε β} {l : List α} {b b' : β}
    (h : l.foldlM f b = .ok b') : ∀ a ∈ l, ∃ c c', f c a = .ok c' := by
  induction l generalizing b with
  | nil => exact fun a ha => absurd ha List.not_mem_nil
  | cons a l ih =>
    rw [List.foldlM_cons, bind_eq_ok] at h
    obtain ⟨c, hc, h⟩ := h
    exact List.forall_mem_cons.2 ⟨⟨b, c, hc⟩, ih h⟩

theorem forM_eq_ok {f : α → Except ε PUnit} {l : List α} :
    l.forM f = .ok () ↔ ∀ a ∈ l, f a = .ok () := by
  induction l with
  | nil => exact iff_of_true rfl fun a ha => absurd ha List.not_mem_nil
  | cons a l ih =>
    rw [List.forall_mem_cons, ← ih]
    exact bind_eq_ok.trans ⟨fun ⟨_, ha, h⟩ => ⟨ha, h⟩, fun ⟨ha, h⟩ => ⟨_, ha, h⟩⟩

theorem mapM_isOk {f : α → Except ε β} {l : List α} :
    (∃ bs, l.mapM f = .ok bs) ↔ ∀ a ∈ l, ∃ b, f a = .ok b := by
  induction l with
  | nil => exact iff_of_true ⟨[], rfl⟩ fun a ha => absurd ha List.not_mem_nil
  | cons a l ih =>
    simp only [List.forall_mem_cons, ← ih, List.mapM_cons, bind_eq_ok, pure_eq_ok]
    constructor
    · rintro ⟨_, b, hb, bs, hbs, rfl⟩
      exact ⟨⟨b, hb⟩, bs, hbs⟩
    · rintro ⟨⟨b, hb⟩, bs, hbs⟩
      exact ⟨_, b, hb, bs, hbs, rfl⟩

/-- All results together are the images under what each single result is. -/
theorem mapM_eq_map {f : α → Except ε β} {g : α → β} {l : List α} {bs : List β}
    (h : l.mapM f = .ok bs) (hf : ∀ a ∈ l, ∀ b, f a = .ok b → b = g a) : bs = l.map g := by
  induction l generalizing bs with
  | nil => exact pure_eq_ok.1 h
  | cons a l ih =>
    simp only [List.mapM_cons, bind_eq_ok, pure_eq_ok] at h
    obtain ⟨b, hb, bs', hbs, rfl⟩ := h
    rw [hf a List.mem_cons_self b hb, ih hbs fun c hc => hf c (List.mem_cons_of_mem _ hc)]
    rfl

theorem mapM_of_ok {f : α → Except ε β} {g : α → β} {l : List α}
    (h : ∀ a ∈ l, f a = .ok (g a)) : l.mapM f = .ok (l.map g) := by
  obtain ⟨bs, hbs⟩ := mapM_isOk.2 fun a ha => ⟨g a, h a ha⟩
  rw [hbs, mapM_eq_map hbs]
  intro a ha b hb
  exact Except.ok.inj (hb.symm.trans (h a ha))

/-- Each result is that of an element. -/
theorem exists_of_mem_mapM {f : α → Except ε β} {l : List α} {bs : List β} (h : l.mapM f = .ok bs) :
    ∀ b ∈ bs, ∃ a ∈ l, f a = .ok b := by
  induction l generalizing bs with
  | nil =>
    cases pure_eq_ok.1 h
    exact fun b hb => absurd hb List.not_mem_nil
  | cons a l ih =>
    simp only [List.mapM_cons, bind_eq_ok, pure_eq_ok] at h
    obtain ⟨b, hb, bs, hbs, rfl⟩ := h
    refine List.forall_mem_cons.2 ⟨⟨a, List.mem_cons_self, hb⟩, fun c hc => ?_⟩
    obtain ⟨a', ha', hac⟩ := ih hbs c hc
    exact ⟨a', List.mem_cons_of_mem _ ha', hac⟩

theorem forall₂_of_mapM {f : α → Except ε β} {l : List α} {bs : List β} (h : l.mapM f = .ok bs) :
    List.Forall₂ (fun a b => f a = .ok b) l bs := by
  induction l generalizing bs with
  | nil => exact pure_eq_ok.1 h ▸ .nil
  | cons a l ih =>
    simp only [List.mapM_cons, bind_eq_ok, pure_eq_ok] at h
    obtain ⟨b, hb, bs, hbs, rfl⟩ := h
    exact .cons hb (ih hbs)

end Schemata
