import Schemata.Proofs.Faults

/-!
# How a computation ends

A computation that may be refused ends as foreseen if what it gives has a property and what it is
refused with is among foreseen faults. Such endings are put together in the way the computations
are.
-/
namespace Schemata
variable {ε α β σ : Type}

structure Ends (foreseen : ε → Prop) (P : α → Prop) (r : Except ε α) : Prop where
  given : ∀ {a}, r = .ok a → P a
  refused : ∀ {e}, r = .error e → foreseen e

namespace Ends
variable {F G : ε → Prop} {P : α → Prop} {Q : β → Prop} {r : Except ε α}

theorem ok {a : α} (h : P a) : Ends F P (.ok a) where
  given he := Except.ok.inj he ▸ h
  refused he := nomatch he

theorem error {e : ε} (h : F e) : Ends F P (.error e) where
  given he := nomatch he
  refused he := Except.error.inj he ▸ h

theorem of_exists (h : ∃ a, r = .ok a ∧ P a) : Ends F P r := by
  obtain ⟨a, rfl, ha⟩ := h
  exact ok ha

theorem of_given (h : ∀ a, r = .ok a → P a) : Ends (fun _ => True) P r :=
  ⟨fun he => h _ he, fun _ => trivial⟩

/-- Foreseen are all faults that there could be. -/
theorem of_judged {faults : List ε} (h : Judged faults P r) (hF : ∀ e ∈ faults, F e) :
    Ends F P r := by
  cases h with
  | accepted ha => exact ok ha
  | refused e faults => exact error (hF e List.mem_cons_self)

theorem mono {P' : α → Prop} (h : Ends F P r) (hP : ∀ a, P a → P' a) : Ends F P' r :=
  ⟨fun he => hP _ (h.given he), h.refused⟩

theorem also {P' : α → Prop} (h : Ends F P r) (h' : ∀ a, r = .ok a → P' a) :
    Ends F (fun a => P a ∧ P' a) r :=
  ⟨fun he => ⟨h.given he, h' _ he⟩, h.refused⟩

/-- Only what has been given goes on. -/
theorem bind {f : α → Except ε β} (h : Ends F P r) (hf : ∀ a, r = .ok a → P a → Ends F Q (f a)) :
    Ends F Q (r >>= f) := by
  cases r with
  | error e => exact error (h.refused rfl)
  | ok a => exact hf a rfl (h.given rfl)

theorem mapError {ε' : Type} {F' : ε' → Prop} {g : ε → ε'} (h : Ends F P r)
    (hF : ∀ e, F e → F' (g e)) : Ends F' P (r.mapError g) := by
  cases r with
  | error e => exact error (hF e (h.refused rfl))
  | ok a => exact ok (h.given rfl)

/-- A run whose steps end as foreseen, each after what has been done before it. -/
theorem foldlM {f : σ → α → Except ε σ} {P : List α → σ → Prop} {l : List α} {s : σ} (hs : P [] s)
    (h : ∀ done a rest, l = done ++ a :: rest → ∀ s, P done s → Ends F (P (done ++ [a])) (f s a)) :
    Ends F (P l) (l.foldlM f s) := by
  have hrun : ∀ rest done s, l = done ++ rest → P done s → Ends F (P l) (rest.foldlM f s) := by
    intro rest
    induction rest with
    | nil =>
      intro done s hl hs
      rw [hl, List.append_nil]
      exact ok hs
    | cons a rest ih =>
      intro done s hl hs
      rw [List.foldlM_cons]
      apply (h done a rest hl s hs).bind
      intro s' _ hs'
      exact ih (done ++ [a]) s' (hl.trans (List.append_cons ..)) hs'
  exact hrun l [] s rfl hs

theorem forM {f : α → Except ε PUnit} {l : List α} (h : ∀ a ∈ l, Ends F (fun _ => P a) (f a)) :
    Ends F (fun _ => ∀ a ∈ l, P a) (l.forM f) := by
  induction l with
  | nil => exact ok fun a ha => absurd ha List.not_mem_nil
  | cons a l ih =>
    apply (h a List.mem_cons_self).bind
    intro _ _ ha
    apply (ih fun b hb => h b (List.mem_cons_of_mem _ hb)).mono
    exact fun _ hl => List.forall_mem_cons.2 ⟨ha, hl⟩

theorem mapM {f : α → Except ε β} {l : List α} (h : ∀ a ∈ l, Ends F Q (f a)) :
    Ends F (fun bs => ∀ b ∈ bs, Q b) (l.mapM f) := by
  induction l with
  | nil => exact ok fun b hb => absurd hb List.not_mem_nil
  | cons a l ih =>
    rw [List.mapM_cons]
    apply (h a List.mem_cons_self).bind
    intro b _ hb
    apply (ih fun c hc => h c (List.mem_cons_of_mem _ hc)).bind
    exact fun bs _ hbs => ok (List.forall_mem_cons.2 ⟨hb, hbs⟩)

end Ends

/-- What the step for each element of a list keeps, the run over the list keeps. -/
theorem foldlM_keeps {f : σ → α → Except ε σ} {P : σ → Prop} {l : List α} {s s' : σ}
    (hf : ∀ a ∈ l, ∀ s s', P s → f s a = .ok s' → P s') (hs : P s) (h : l.foldlM f s = .ok s') :
    P s' := by
  have hrun : Ends (fun _ => True) P (l.foldlM f s) := by
    apply Ends.foldlM (P := fun _ => P) hs
    intro done a rest hl s hs
    exact .of_given fun s' => hf a (hl ▸ List.mem_append_right done List.mem_cons_self) s s' hs
  exact hrun.given h

/-- A state that a run over a list comes through. -/
def Passes (f : σ → α → Except ε σ) (s : σ) (l : List α) (s' : σ) : Prop :=
  ∃ done, done <+: l ∧ done.foldlM f s = .ok s'

theorem Passes.invariant {f : σ → α → Except ε σ} {P : σ → Prop} {l : List α} {s s' : σ}
    (h : Passes f s l s') (hf : ∀ s a s', P s → f s a = .ok s' → P s') (hs : P s) : P s' := by
  obtain ⟨done, -, hrun⟩ := h
  exact foldlM_invariant hf hs hrun

end Schemata
