import Schemata.Proofs.Outcome

/-!
# The first fault

A computation that checks as it goes is described by the list of all faults in the order in which it
would meet them. It is refused with the first of them, and accepted if there are none. Such
descriptions are put together in the way the computations are.
-/
namespace Schemata
variable {ε α β σ : Type}

/-- Accepted with a result that has the property if there are no faults, refused with the first
fault otherwise. -/
inductive Judged : List ε → (α → Prop) → Except ε α → Prop
  | accepted {P : α → Prop} {a : α} (h : P a) : Judged [] P (.ok a)
  | refused {P : α → Prop} (e : ε) (faults : List ε) : Judged (e :: faults) P (.error e)

/-- A fault under a condition. -/
def faultIf (bad : Prop) [Decidable bad] (e : ε) : List ε := if bad then [e] else []

theorem mem_faultIf {bad : Prop} [Decidable bad] {e e' : ε} :
    e' ∈ faultIf bad e ↔ bad ∧ e' = e := by
  by_cases h : bad <;> simp [faultIf, h]

theorem faultIf_eq_nil {bad : Prop} [Decidable bad] {e : ε} : faultIf bad e = [] ↔ ¬bad := by
  simp [faultIf]

theorem map_faultIf {ε' : Type} {bad : Prop} [Decidable bad] {e : ε} (f : ε → ε') :
    (faultIf bad e).map f = faultIf bad (f e) := by
  by_cases h : bad <;> simp [faultIf, h]

namespace Judged
variable {faults more : List ε} {P Q : α → Prop} {r : Except ε α} {a : α} {e : ε}

theorem of_exists (h : ∃ a, r = .ok a ∧ P a) : Judged [] P r := by
  obtain ⟨a, rfl, ha⟩ := h
  exact .accepted ha

theorem mono (h : Judged faults P r) (hPQ : ∀ a, P a → Q a) : Judged faults Q r := by
  cases h with
  | accepted ha => exact .accepted (hPQ _ ha)
  | refused e faults => exact .refused e faults

theorem also (h : Judged faults P r) (h' : ∀ a, r = .ok a → Q a) :
    Judged faults (fun a => P a ∧ Q a) r := by
  cases h with
  | accepted ha => exact .accepted ⟨ha, h' _ rfl⟩
  | refused e faults => exact .refused e faults

theorem exists_ok_iff (h : Judged faults P r) : (∃ a, r = .ok a) ↔ faults = [] := by
  cases h <;> simp

theorem error_iff (h : Judged faults P r) : r = .error e ↔ faults.head? = some e := by
  cases h <;> simp

theorem of_eq_ok (h : Judged faults P r) (hr : r = .ok a) : P a := by
  subst hr
  cases h with
  | accepted ha => exact ha

/-- Checks one after the other: the faults of the later ones count if the earlier ones find none. -/
theorem bind {x : Except ε β} {P : β → Prop} {f : β → Except ε α} (h : Judged faults P x)
    (hf : ∀ b, P b → Judged more Q (f b)) : Judged (faults ++ more) Q (x >>= f) := by
  cases h with
  | accepted hb => exact hf _ hb
  | refused e faults => exact .refused e (faults ++ more)

/-- What goes on after an acceptance and keeps the refusals is judged alike. -/
theorem carry {x : Except ε β} {P : β → Prop} (h : Judged faults P x)
    (herror : ∀ e, x = .error e → r = .error e)
    (hok : ∀ b, x = .ok b → P b → ∃ a, r = .ok a ∧ Q a) : Judged faults Q r := by
  cases h with
  | accepted hb => exact .of_exists (hok _ rfl hb)
  | refused e faults =>
    rw [herror e rfl]
    exact .refused e faults

theorem mapError {ε' : Type} (h : Judged faults P r) (f : ε → ε') :
    Judged (faults.map f) P (r.mapError f) := by
  cases h with
  | accepted ha => exact .accepted ha
  | refused e faults => exact .refused (f e) (faults.map f)

theorem ite_error {bad c : Prop} [Decidable bad] [Decidable c] (hc : c ↔ bad)
    (h : ¬bad → Judged faults P r) :
    Judged (faultIf bad e ++ faults) P (if c then .error e else r) := by
  by_cases hb : bad
  · rw [if_pos (hc.2 hb), faultIf, if_pos hb]
    exact .refused e faults
  · rw [if_neg (mt hc.1 hb), faultIf, if_neg hb]
    exact h hb

theorem ite_ok {bad c : Prop} [Decidable bad] [Decidable c] (hc : c ↔ bad) (h : ¬bad → P a) :
    Judged (faultIf bad e) P (if c then .error e else .ok a) := by
  rw [← List.append_nil (faultIf bad e)]
  exact ite_error hc fun hb => .accepted (h hb)

end Judged

/-! ### Runs -/

/-- The faults of all elements of a list, each judged after those before it. -/
def faultsAlong (faults : List α → α → List ε) (done : List α) : List α → List ε
  | [] => []
  | a :: l => faults done a ++ faultsAlong faults (done ++ [a]) l

theorem faultsAlong_const (faults : α → List ε) (done l : List α) :
    faultsAlong (fun _ => faults) done l = l.flatMap faults := by
  induction l generalizing done with
  | nil => rfl
  | cons a l ih => rw [faultsAlong, ih, List.flatMap_cons]

/-- The first fault of all elements is the first fault of the first one that has any. -/
theorem head?_flatMap_eq_some {faults : α → List ε} {l : List α} {e : ε} :
    (l.flatMap faults).head? = some e ↔ ∃ before a after, l = before ++ a :: after ∧
      (∀ b ∈ before, faults b = []) ∧ (faults a).head? = some e := by
  rw [List.head?_flatMap, List.findSome?_eq_some_iff]
  simp only [List.head?_eq_none_iff, and_comm]

/-- No fault along a list, element by element. -/
theorem faultsAlong_eq_nil {faults : List α → α → List ε} {done l : List α} :
    faultsAlong faults done l = [] ↔
      ∀ before a after, l = before ++ a :: after → faults (done ++ before) a = [] := by
  induction l generalizing done with
  | nil => simp [faultsAlong]
  | cons b l ih =>
    rw [faultsAlong, List.append_eq_nil_iff, ih]
    constructor
    · rintro ⟨hb, hl⟩ before a after he
      rcases List.append_eq_cons_iff.1 he.symm with ⟨rfl, he⟩ | ⟨before', rfl, rfl⟩
      · cases he
        rwa [List.append_nil]
      · rw [List.append_cons]
        exact hl before' a after rfl
    · intro h
      refine ⟨?_, fun before a after he => ?_⟩
      · rw [← List.append_nil done]
        exact h [] b l rfl
      · rw [List.append_assoc]
        exact h (b :: before) a after (by rw [he, List.cons_append])

theorem exists_of_mem_faultsAlong {faults : List α → α → List ε} {done l : List α} {e : ε}
    (h : e ∈ faultsAlong faults done l) : ∃ done', ∃ a ∈ l, e ∈ faults done' a := by
  induction l generalizing done with
  | nil => cases h
  | cons a l ih =>
    rcases List.mem_append.1 h with h | h
    · exact ⟨done, a, List.mem_cons_self, h⟩
    · obtain ⟨done', b, hb, h⟩ := ih h
      exact ⟨done', b, List.mem_cons_of_mem _ hb, h⟩

/-- The first fault along a list is a first fault of an element, and there is none before it. -/
theorem head?_faultsAlong {faults : List α → α → List ε} {done l : List α} {e : ε}
    (h : (faultsAlong faults done l).head? = some e) :
    ∃ before a after, l = before ++ a :: after ∧ faultsAlong faults done before = [] ∧
      (faults (done ++ before) a).head? = some e := by
  induction l generalizing done with
  | nil => cases h
  | cons b l ih =>
    rw [faultsAlong] at h
    cases hb : faults done b with
    | nil =>
      rw [hb, List.nil_append] at h
      obtain ⟨before, a, after, rfl, hbefore, ha⟩ := ih h
      refine ⟨b :: before, a, after, rfl, ?_, ?_⟩
      · rw [faultsAlong, hb, hbefore]
        rfl
      · rwa [List.append_cons]
    | cons e' rest =>
      rw [hb] at h
      exact ⟨[], b, l, rfl, rfl, by rwa [List.append_nil, hb]⟩

/-- A run whose steps are judged by what has been done before them. -/
theorem Judged.foldlM {f : σ → α → Except ε σ} {faults : List α → α → List ε}
    {P : List α → σ → Prop} {done l : List α} {s : σ} (hs : P done s)
    (h : ∀ done, ∀ a ∈ l, ∀ s, P done s → Judged (faults done a) (P (done ++ [a])) (f s a)) :
    Judged (faultsAlong faults done l) (P (done ++ l)) (l.foldlM f s) := by
  induction l generalizing done s with
  | nil =>
    rw [List.append_nil]
    exact .accepted hs
  | cons a l ih =>
    rw [List.foldlM_cons, faultsAlong]
    apply (h done a List.mem_cons_self s hs).bind
    intro s' hs'
    rw [List.append_cons done a l]
    exact ih hs' fun done b hb => h done b (List.mem_cons_of_mem _ hb)

/-- The same where a step need only be judged after what stands before its element. -/
theorem Judged.foldlM_prefix {f : σ → α → Except ε σ} {faults : List α → α → List ε}
    {P : List α → σ → Prop} {l : List α} {s : σ} (hs : P [] s)
    (h : ∀ done a rest, l = done ++ a :: rest → ∀ s, P done s →
      Judged (faults done a) (P (done ++ [a])) (f s a)) :
    Judged (faultsAlong faults [] l) (P l) (l.foldlM f s) := by
  have hrun : ∀ rest done s, l = done ++ rest → P done s →
      Judged (faultsAlong faults done rest) (P l) (rest.foldlM f s) := by
    intro rest
    induction rest with
    | nil =>
      intro done s hl hs
      rw [hl, List.append_nil]
      exact .accepted hs
    | cons a rest ih =>
      intro done s hl hs
      rw [List.foldlM_cons, faultsAlong]
      apply (h done a rest hl s hs).bind
      exact fun s' hs' => ih (done ++ [a]) s' (hl.trans (List.append_cons ..)) hs'
  exact hrun l [] s rfl hs

/-- A run that only checks. -/
theorem Judged.forM {f : α → Except ε PUnit} {faults : α → List ε} {l : List α}
    (h : ∀ a ∈ l, Judged (faults a) (fun _ => True) (f a)) :
    Judged (l.flatMap faults) (fun _ => True) (l.forM f) := by
  induction l with
  | nil => exact .accepted trivial
  | cons a l ih =>
    rw [List.flatMap_cons]
    apply (h a List.mem_cons_self).bind
    exact fun _ _ => ih fun b hb => h b (List.mem_cons_of_mem _ hb)

/-- The same where each check gives a result. -/
theorem Judged.mapM {f : α → Except ε β} {faults : α → List ε} {Q : β → Prop} {l : List α}
    (h : ∀ a ∈ l, Judged (faults a) Q (f a)) :
    Judged (l.flatMap faults) (fun bs => ∀ b ∈ bs, Q b) (l.mapM f) := by
  induction l with
  | nil => exact .accepted fun b hb => absurd hb List.not_mem_nil
  | cons a l ih =>
    rw [List.flatMap_cons, List.mapM_cons]
    apply (h a List.mem_cons_self).bind
    intro b hb
    rw [← List.append_nil (l.flatMap faults)]
    apply (ih fun c hc => h c (List.mem_cons_of_mem _ hc)).bind
    exact fun bs hbs => .accepted (List.forall_mem_cons.2 ⟨hb, hbs⟩)

end Schemata
