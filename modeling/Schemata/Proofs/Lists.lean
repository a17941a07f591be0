import Mathlib.Data.List.Forall2
import Mathlib.Data.List.Nodup
import Mathlib.Data.List.Induction

/-!
# Records in lists

A record is found by a key that no other record of the list has, its place is where the key stands.
-/
namespace Schemata
variable {α β κ : Type}

/-- A list with an element in it, at the end unless it was there. -/
def enlist [DecidableEq α] (l : List α) (x : α) : List α := if x ∈ l then l else l ++ [x]

theorem mem_enlist [DecidableEq α] {l : List α} {x y : α} : y ∈ enlist l x ↔ y ∈ l ∨ y = x := by
  unfold enlist
  split
  · rename_i h
    exact ⟨.inl, fun hy => hy.elim id fun he => he ▸ h⟩
  · simp

theorem foldl_enlist_of_nodup [DecidableEq α] {l xs : List α} (h : (l ++ xs).Nodup) :
    xs.foldl enlist l = l ++ xs := by
  induction xs generalizing l with
  | nil => simp
  | cons x xs ih =>
    have hx : x ∉ l := fun hx => (List.nodup_append.1 h).2.2 x hx x List.mem_cons_self rfl
    rw [List.append_cons] at h
    rw [List.foldl_cons, enlist, if_neg hx, ih h, ← List.append_cons]

theorem foldl_enlist_of_mem [DecidableEq α] {l xs : List α} (h : ∀ x ∈ xs, x ∈ l) :
    xs.foldl enlist l = l := by
  induction xs with
  | nil => rfl
  | cons x xs ih =>
    rw [List.foldl_cons, enlist, if_pos (h x List.mem_cons_self)]
    exact ih fun y hy => h y (List.mem_cons_of_mem _ hy)

/-- To enlist all elements of a list is to keep the first of equal ones. -/
theorem foldl_enlist_nil [DecidableEq α] (l : List α) : l.foldl enlist [] = l.eraseDups := by
  induction l using List.reverseRecOn with
  | nil => rfl
  | append_singleton l x ih =>
    rw [List.foldl_append, ih, List.eraseDups_append]
    by_cases hx : x ∈ l <;> simp [enlist, List.removeAll, List.eraseDups_cons, hx]

theorem foldl_enlist_map [DecidableEq α] [DecidableEq β] {f : α → β} {P : α → Prop}
    (hf : ∀ a b, P a → P b → f a = f b → a = b) {l xs : List α} (hl : ∀ a ∈ l, P a)
    (hxs : ∀ a ∈ xs, P a) : (xs.map f).foldl enlist (l.map f) = (xs.foldl enlist l).map f := by
  induction xs generalizing l with
  | nil => rfl
  | cons x xs ih =>
    obtain ⟨hx, hxs⟩ := List.forall_mem_cons.1 hxs
    have hmem : f x ∈ l.map f ↔ x ∈ l := by
      constructor
      · intro h
        obtain ⟨a, ha, he⟩ := List.mem_map.1 h
        exact hf a x (hl a ha) hx he ▸ ha
      · exact List.mem_map_of_mem
    have hstep : enlist (l.map f) (f x) = (enlist l x).map f := by
      by_cases h : x ∈ l <;> simp [enlist, hmem, h]
    have hl' : ∀ a ∈ enlist l x, P a := by
      intro a ha
      rcases mem_enlist.1 ha with ha | rfl
      · exact hl a ha
      · exact hx
    rw [List.map_cons, List.foldl_cons, List.foldl_cons, hstep]
    exact ih hl' hxs

theorem idxOf_of_getElem? [DecidableEq α] {l : List α} (hl : l.Nodup) {i : Nat} {a : α}
    (h : l[i]? = some a) : l.idxOf a = i := by
  obtain ⟨hi, rfl⟩ := List.getElem?_eq_some_iff.1 h
  exact hl.idxOf_getElem i hi

theorem modify_push (l : List α) (a : α) (f : α → α) :
    (l ++ [a]).modify l.length f = l ++ [f a] := by
  induction l with
  | nil => rfl
  | cons b l ih => simp [ih]

theorem filterMap_of_forall₂ {g : α → Option β} {l : List α} {bs : List β}
    (h : List.Forall₂ (fun a b => g a = some b) l bs) : l.filterMap g = bs := by
  induction h with
  | nil => rfl
  | cons hb _ ih => rw [List.filterMap_cons_some hb, ih]

theorem getElem?_of_forall₂ {R : α → β → Prop} {l : List α} {l' : List β} (h : List.Forall₂ R l l')
    {i : Nat} {a : α} (ha : l[i]? = some a) : ∃ b, l'[i]? = some b ∧ R a b := by
  induction h generalizing i with
  | nil => cases ha
  | cons hab _ ih =>
    cases i with
    | zero =>
      cases ha
      exact ⟨_, rfl, hab⟩
    | succ i => exact ih ha

theorem forall₂_modify {R : α → β → Prop} {f : β → β} (hf : ∀ a b, R a b → R a (f b)) {l : List α}
    {l' : List β} (h : List.Forall₂ R l l') (i : Nat) : List.Forall₂ R l (l'.modify i f) := by
  induction h generalizing i with
  | nil =>
    rw [List.modify_nil]
    exact .nil
  | cons hab hl ih =>
    cases i with
    | zero => exact .cons (hf _ _ hab) hl
    | succ i => exact .cons hab (ih i)

/-- No two records have one key if none has the key of one that stands before it. -/
theorem nodup_map_iff {key : α → κ} {l : List α} : (l.map key).Nodup ↔
    ∀ before a after, l = before ++ a :: after → ∀ b ∈ before, key b ≠ key a := by
  induction l with
  | nil => simp
  | cons c l ih =>
    rw [List.map_cons, List.nodup_cons, ih]
    constructor
    · rintro ⟨hc, hl⟩ before a after hsplit b hb
      rcases List.cons_eq_append_iff.1 hsplit with ⟨rfl, -⟩ | ⟨before, rfl, rfl⟩
      · cases hb
      · rcases List.mem_cons.1 hb with rfl | hb
        · intro hkey
          exact hc (hkey ▸ List.mem_map_of_mem (List.mem_append_right before List.mem_cons_self))
        · exact hl before a after rfl b hb
    · intro h
      refine ⟨fun hc => ?_, fun before a after hsplit b hb => ?_⟩
      · obtain ⟨a, ha, hkey⟩ := List.mem_map.1 hc
        obtain ⟨before, after, rfl⟩ := List.append_of_mem ha
        exact h (c :: before) a after rfl c List.mem_cons_self hkey.symm
      · exact h (c :: before) a after (congrArg (c :: ·) hsplit) b (List.mem_cons_of_mem c hb)

section Keys
variable [DecidableEq κ] {key : α → κ} {l : List α}

theorem getElem?_idxOf_key (hl : (l.map key).Nodup) {a : α} (ha : a ∈ l) :
    l[(l.map key).idxOf (key a)]? = some a := by
  obtain ⟨i, hi⟩ := List.mem_iff_getElem?.1 ha
  have hk : (l.map key)[i]? = some (key a) := by rw [List.getElem?_map, hi, Option.map_some]
  rw [idxOf_of_getElem? hl hk, hi]

omit [DecidableEq κ] in
theorem eq_of_key_eq (hl : (l.map key).Nodup) {a b : α} (ha : a ∈ l) (hb : b ∈ l)
    (h : key a = key b) : a = b := List.inj_on_of_nodup_map hl ha hb h

/-- Each record contributes what carries its key, so by the key its contribution comes back. -/
theorem filter_flatMap_key (hl : (l.map key).Nodup) {g : α → List β} {tag : β → κ}
    (htag : ∀ a ∈ l, ∀ x ∈ g a, tag x = key a) {a : α} (ha : a ∈ l) :
    ((l.flatMap g).filter fun x => tag x == key a) = g a := by
  have hother {l : List α} (htag : ∀ b ∈ l, ∀ x ∈ g b, tag x = key b) (ha : key a ∉ l.map key) :
      ((l.flatMap g).filter fun x => tag x == key a) = [] := by
    apply List.filter_eq_nil_iff.2
    intro x hx he
    obtain ⟨b, hb, hx⟩ := List.mem_flatMap.1 hx
    rw [beq_iff_eq, htag b hb x hx] at he
    exact ha (he ▸ List.mem_map_of_mem hb)
  induction l with
  | nil => cases ha
  | cons b l ih =>
    rw [List.map_cons, List.nodup_cons] at hl
    have htail : ∀ c ∈ l, ∀ x ∈ g c, tag x = key c := fun c hc =>
      htag c (List.mem_cons_of_mem _ hc)
    rw [List.flatMap_cons, List.filter_append]
    rcases List.mem_cons.1 ha with rfl | ha
    · rw [hother htail hl.1, List.append_nil, List.filter_eq_self]
      intro x hx
      exact beq_iff_eq.2 (htag a List.mem_cons_self x hx)
    · have hne : key a ∉ [b].map key := by
        intro he
        rw [List.map_singleton, List.mem_singleton] at he
        exact hl.1 (he ▸ List.mem_map_of_mem ha)
      have hhead := hother (l := [b]) (fun c hc => by
        rw [List.mem_singleton.1 hc]
        exact htag b List.mem_cons_self) hne
      rw [List.flatMap_singleton] at hhead
      rw [hhead, List.nil_append, ih hl.2 htail ha]

/-- A change at the place of one record is a change of just this record. -/
theorem modify_map_key (hl : (l.map key).Nodup) (a : α) (g : α → β) (f : β → β) :
    (l.map g).modify ((l.map key).idxOf (key a)) f =
      l.map fun b => if key b = key a then f (g b) else g b := by
  ext j : 1
  rw [List.getElem?_modify, List.getElem?_map, List.getElem?_map]
  cases hj : l[j]? with
  | none => rfl
  | some b =>
    have hk : (l.map key)[j]? = some (key b) := by rw [List.getElem?_map, hj, Option.map_some]
    have hiff : (l.map key).idxOf (key a) = j ↔ key b = key a := by
      constructor
      · intro hi
        have hm : key a ∈ l.map key := by
          rw [← List.idxOf_lt_length_iff, hi]
          exact (List.getElem?_eq_some_iff.1 hk).1
        obtain ⟨c, hc, hca⟩ := List.mem_map.1 hm
        have hplace := getElem?_idxOf_key hl hc
        rw [hca, hi, hj] at hplace
        cases hplace
        exact hca
      · intro he
        exact he ▸ idxOf_of_getElem? hl hk
    by_cases h : key b = key a <;> simp [hiff, h]

theorem idxOf_map_of_inj [DecidableEq α] {a : α} (h : ∀ b ∈ l, key b = key a → b = a) :
    (l.map key).idxOf (key a) = l.idxOf a := by
  induction l with
  | nil => rfl
  | cons b l ih =>
    have htail := ih fun c hc => h c (List.mem_cons_of_mem _ hc)
    rw [List.map_cons, List.idxOf_cons, List.idxOf_cons, htail]
    by_cases hb : b = a
    · subst hb
      simp
    · have hk : key b ≠ key a := fun hk => hb (h b List.mem_cons_self hk)
      rw [beq_eq_false_iff_ne.2 hb, beq_eq_false_iff_ne.2 hk]

end Keys

/-- The elements of a list with what belongs to their places, the latest first. -/
def withPlaces (mk : Nat → β) (l : List α) : List (α × β) :=
  (l.zipIdx.map fun p => (p.1, mk p.2)).reverse

theorem withPlaces_push (mk : Nat → β) (l : List α) (a : α) :
    withPlaces mk (l ++ [a]) = (a, mk l.length) :: withPlaces mk l := by
  simp [withPlaces, List.zipIdx_append]

theorem lookup_withPlaces [DecidableEq α] (mk : Nat → β) {l : List α} (hl : l.Nodup) (a : α) :
    (withPlaces mk l).lookup a = if a ∈ l then some (mk (l.idxOf a)) else none := by
  induction l using List.reverseRecOn with
  | nil => rfl
  | append_singleton l b ih =>
    obtain ⟨hl, -, hdisj⟩ := List.nodup_append.1 hl
    have hb : b ∉ l := fun hb => hdisj b hb b (List.mem_singleton_self b) rfl
    rw [withPlaces_push, List.lookup_cons, ih hl, List.idxOf_append]
    by_cases hab : a = b
    · simp [hab, hb]
    · by_cases ha : a ∈ l <;> simp [hab, ha, beq_eq_false_iff_ne.2 hab]

/-- Of equal elements the last one is found. -/
theorem lookup_withPlaces_eq_some [DecidableEq α] (mk : Nat → β) {l : List α} {a : α} {b : β} :
    (withPlaces mk l).lookup a = some b ↔
      ∃ i, b = mk i ∧ l[i]? = some a ∧ ∀ j, l[j]? = some a → j ≤ i := by
  induction l using List.reverseRecOn with
  | nil => simp [withPlaces]
  | append_singleton l c ih =>
    rw [withPlaces_push, List.lookup_cons]
    by_cases hac : a = c
    · subst hac
      simp only [beq_self_eq_true, Option.some.injEq]
      constructor
      · rintro rfl
        refine ⟨l.length, rfl, by simp, fun j hj => ?_⟩
        have hlt := (List.getElem?_eq_some_iff.1 hj).1
        rw [List.length_append, List.length_singleton] at hlt
        exact Nat.le_of_lt_succ hlt
      · rintro ⟨i, rfl, hi, hlast⟩
        have hlt := (List.getElem?_eq_some_iff.1 hi).1
        rw [List.length_append, List.length_singleton] at hlt
        have hle := hlast l.length (by simp)
        exact congrArg mk (Nat.le_antisymm hle (Nat.le_of_lt_succ hlt))
    · have hold (j : Nat) : (l ++ [c])[j]? = some a ↔ l[j]? = some a := by
        rcases Nat.lt_trichotomy j l.length with hj | rfl | hj
        · rw [List.getElem?_append_left hj]
        · simp [Ne.symm hac]
        · rw [List.getElem?_eq_none (Nat.le_of_lt hj), List.getElem?_eq_none]
          rwa [List.length_append, List.length_singleton]
      simp only [beq_eq_false_iff_ne.2 hac, ih, hold]

theorem isSome_lookup_withPlaces [DecidableEq α] (mk : Nat → β) {l : List α} {a : α} :
    ((withPlaces mk l).lookup a).isSome = true ↔ a ∈ l := by
  induction l using List.reverseRecOn with
  | nil => simp [withPlaces]
  | append_singleton l c ih =>
    rw [withPlaces_push, List.lookup_cons, List.mem_append, List.mem_singleton, ← ih]
    by_cases hac : a = c
    · simp [hac]
    · simp [hac, beq_eq_false_iff_ne.2 hac]

/-! ### Notes -/

/-- Whatever is noted for a key has the property. -/
def Noted [BEq κ] (P : β → Prop) (notes : List (κ × β)) : Prop :=
  ∀ k b, notes.lookup k = some b → P b

theorem noted_nil [BEq κ] (P : β → Prop) : Noted P ([] : List (κ × β)) := fun _ _ h => nomatch h

theorem Noted.push [BEq κ] {P : β → Prop} {notes : List (κ × β)} (h : Noted P notes) {k : κ} {b : β}
    (hb : P b) : Noted P ((k, b) :: notes) := by
  intro k' b' hk
  rw [List.lookup_cons] at hk
  split at hk
  · exact Option.some.inj hk ▸ hb
  · exact h k' b' hk

theorem Noted.mono [BEq κ] {P P' : β → Prop} {notes : List (κ × β)} (h : Noted P notes)
    (hP : ∀ b, P b → P' b) : Noted P' notes := fun k b hk => hP b (h k b hk)

/-- A later note takes no earlier one away. -/
theorem isSome_lookup_cons [BEq κ] {notes : List (κ × β)} {k : κ}
    (h : (notes.lookup k).isSome = true) (e : κ × β) : ((e :: notes).lookup k).isSome = true := by
  rw [List.lookup_cons]
  split
  · rfl
  · exact h

end Schemata
