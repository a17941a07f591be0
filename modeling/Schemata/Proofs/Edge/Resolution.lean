import Schemata.Proofs.Edge.Connectors
import Schemata.Proofs.Lists

/-!
# One more connector

How the meaning of a list of connectors grows with the next one, and that relating two entities or
giving an attribute to an entity grows the links in the same way.
-/
namespace Schemata.Edge
variable {d : Diagram} {cs : List Connector} {c : Connector} {l : Links}

namespace Links

theorem mem_relatedTo (a b : Nat) : b ∈ l.relatedTo a ↔ (a, b) ∈ l.related := by
  simp only [relatedTo, List.mem_filterMap]
  constructor
  · rintro ⟨p, hp, h⟩
    by_cases ha : p.1 = a
    · rw [if_pos ha, Option.some.injEq] at h
      rw [← ha, ← h]
      exact hp
    · rw [if_neg ha] at h
      cases h
  · intro h
    exact ⟨(a, b), h, by simp⟩

theorem relatedTo_relate (a b x : Nat) :
    (l.relate a b).relatedTo x = if x = a then enlist (l.relatedTo a) b else l.relatedTo x := by
  have hc : l.related.contains (a, b) = true ↔ b ∈ l.relatedTo a := by
    rw [mem_relatedTo, List.contains_iff_mem]
  unfold relate enlist
  by_cases hm : b ∈ l.relatedTo a
  · rw [if_pos (hc.2 hm), if_pos hm]
    by_cases hx : x = a <;> simp [hx]
  · rw [if_neg (mt hc.1 hm), if_neg hm]
    by_cases hx : x = a
    · simp [relatedTo, hx]
    · simp [relatedTo, hx, Ne.symm hx]

theorem mem_relatedTo_relate (a b x y : Nat) :
    y ∈ (l.relate a b).relatedTo x ↔ y ∈ l.relatedTo x ∨ x = a ∧ y = b := by
  rw [relatedTo_relate]
  by_cases hx : x = a
  · rw [if_pos hx, mem_enlist, hx]
    simp
  · simp [hx]

theorem owners_relate (a b : Nat) : (l.relate a b).owners = l.owners := by
  unfold relate
  split <;> rfl

end Links

/-! ### Figures by their ids -/

theorem Diagram.entity?_isSome (d : Diagram) (x : Nat) : (d.entity? x).isSome ↔ d.IsEntity x := by
  simp [entity?, IsEntity]

theorem Diagram.attribute?_isSome (d : Diagram) (x : Nat) :
    (d.attribute? x).isSome ↔ d.IsAttribute x := by
  simp [attribute?, IsAttribute]

theorem Diagram.entity?_eq_some {d : Diagram} {x : Nat} {e : Entity} (h : d.entity? x = some e) :
    e ∈ d.entities ∧ e.id = x :=
  ⟨List.mem_of_find?_eq_some h, by simpa using List.find?_some h⟩

theorem Diagram.attribute?_eq_some {d : Diagram} {x : Nat} {a : Attribute}
    (h : d.attribute? x = some a) : a ∈ d.attributes ∧ a.id = x :=
  ⟨List.mem_of_find?_eq_some h, by simpa using List.find?_some h⟩

theorem Diagram.Distinct.not_both (h : d.Distinct) {x : Nat} (he : d.IsEntity x)
    (ha : d.IsAttribute x) : False := by
  obtain ⟨e, he, rfl⟩ := he
  obtain ⟨a, ha, hx⟩ := ha
  exact (List.nodup_append.1 h).2.2 _ (List.mem_map_of_mem he) _ (List.mem_map_of_mem ha) hx.symm

/-- An id is that of an attribute, of an entity, or of neither. -/
theorem Diagram.Distinct.figure_cases (h : d.Distinct) (x : Nat) :
    (∃ a ∈ d.attributes, a.id = x ∧ d.attribute? x = some a ∧ d.entity? x = none) ∨
    (∃ e ∈ d.entities, e.id = x ∧ d.entity? x = some e ∧ d.attribute? x = none) ∨
    ((d.entity? x = none ∧ d.attribute? x = none) ∧ ¬d.IsEntity x ∧ ¬d.IsAttribute x) := by
  have hno := h.not_both (x := x)
  rw [← d.entity?_isSome, ← d.attribute?_isSome] at hno ⊢
  cases ha : d.attribute? x with
  | some a =>
    obtain ⟨hmem, hid⟩ := Diagram.attribute?_eq_some ha
    cases he : d.entity? x with
    | none => exact .inl ⟨a, hmem, hid, rfl, rfl⟩
    | some e => exact absurd (by simp [ha]) (hno (by simp [he]))
  | none =>
    cases he : d.entity? x with
    | none => exact .inr (.inr (by simp))
    | some e =>
      obtain ⟨hmem, hid⟩ := Diagram.entity?_eq_some he
      exact .inr (.inl ⟨e, hmem, hid, rfl, rfl⟩)

/-! ### One more connector -/

theorem Lawful.push (h : Lawful d cs) (hplain : ¬(d.IsAttribute c.first ∧ d.IsAttribute c.second))
    (hmany : d.IsEntity c.first → d.IsEntity c.second → ¬c.BothMany)
    (hown : ∀ a e e', d.IsAttribute a → d.IsEntity e → d.IsEntity e' → c.Joins a e →
      Joined cs a e' ∨ c.Joins a e' → e = e') : Lawful d (cs ++ [c]) where
  plain c' hc' := by
    rcases List.mem_append.1 hc' with hc' | hc'
    · exact h.plain c' hc'
    · rw [List.mem_singleton.1 hc']
      exact hplain
  notMany c' hc' := by
    rcases List.mem_append.1 hc' with hc' | hc'
    · exact h.notMany c' hc'
    · rw [List.mem_singleton.1 hc']
      exact hmany
  oneOwner a e e' ha he he' hj hj' := by
    rw [joined_push] at hj hj'
    rcases hj with hj | hj
    · rcases hj' with hj' | hj'
      · exact h.oneOwner a e e' ha he he' hj hj'
      · exact (hown a e' e ha he' he hj' (.inl hj)).symm
    · exact hown a e e' ha he he' hj hj'

/-- A connector that joins only what is joined already changes nothing. -/
theorem Resolved.push_same (h : Resolved d cs l)
    (hown : ∀ a e, d.IsAttribute a → d.IsEntity e → c.Joins a e → Joined cs a e)
    (hrel : ∀ e e', d.IsEntity e → d.IsEntity e' → c.Joins e e' → Joined cs e e') :
    Resolved d (cs ++ [c]) l where
  owner a e := by
    rw [h.owner, joined_push]
    apply and_congr_right
    intro ha
    apply and_congr_right
    intro he
    exact ⟨.inl, fun hj => hj.elim id (hown a e ha he)⟩
  owned e a := by
    rw [h.owned, joined_push]
    apply and_congr_right
    intro he
    apply and_congr_right
    intro ha
    exact ⟨.inl, fun hj => hj.elim id fun hj => joined_symm.1 (hown a e ha he hj.symm)⟩
  related e e' := by
    rw [h.related, joined_push]
    apply and_congr_right
    intro he
    apply and_congr_right
    intro he'
    exact ⟨.inl, fun hj => hj.elim id (hrel e e' he he')⟩
  ownedOrder e := pairwise_rank_push (fun a ha => ((h.owned e a).1 ha).2.2) (h.ownedOrder e)
  relatedOrder e :=
    pairwise_rank_push (fun e' he' => ((h.related e e').1 he').2.2) (h.relatedOrder e)

/-- Listing one more partner keeps the order of the list. -/
theorem pairwise_enlist {x y : Nat} {ys : List Nat} (hys : ∀ z ∈ ys, Joined cs x z)
    (h : ys.Pairwise fun a b => rank cs x a < rank cs x b) (hy : y ∉ ys → ¬Joined cs x y) :
    (enlist ys y).Pairwise fun a b => rank (cs ++ [c]) x a < rank (cs ++ [c]) x b := by
  unfold enlist
  by_cases hm : y ∈ ys
  · rw [if_pos hm]
    exact pairwise_rank_push hys h
  · rw [if_neg hm]
    exact pairwise_rank_snoc hys h (hy hm)

/-- After a connector between entities, the partner of each end is listed there. -/
theorem Links.relatedTo_both (a b x : Nat) :
    ((l.relate a b).relate b a).relatedTo x =
      if x = a then enlist (l.relatedTo a) b
      else if x = b then enlist (l.relatedTo b) a else l.relatedTo x := by
  simp only [relatedTo_relate]
  by_cases hxa : x = a
  · by_cases hab : b = a
    · subst hab
      have hm : b ∈ enlist (l.relatedTo b) b := mem_enlist.2 (.inr rfl)
      simp only [hxa, if_true]
      rw [enlist, if_pos hm]
    · simp [hxa, Ne.symm hab]
  · by_cases hxb : x = b
    · subst hxb
      simp [hxa]
    · simp [hxa, hxb]

theorem Resolved.relate (h : Resolved d cs l) (hd : d.Distinct) (he : d.IsEntity c.first)
    (he' : d.IsEntity c.second) :
    Resolved d (cs ++ [c]) ((l.relate c.first c.second).relate c.second c.first) := by
  -- owners are as before: the connector has no attribute at either end
  have hno {a e : Nat} (ha : d.IsAttribute a) : ¬c.Joins a e := by
    rintro (⟨rfl, -⟩ | ⟨-, rfl⟩)
    · exact hd.not_both he ha
    · exact hd.not_both he' ha
  have howners : ((l.relate c.first c.second).relate c.second c.first).owners = l.owners := by
    rw [Links.owners_relate, Links.owners_relate]
  have hfresh {x y : Nat} (hx : d.IsEntity x) (hy : d.IsEntity y) (hm : y ∉ l.relatedTo x) :
      ¬Joined cs x y := fun hj => hm ((h.related x y).2 ⟨hx, hy, hj⟩)
  have hjoined (x : Nat) : ∀ y ∈ l.relatedTo x, Joined cs x y :=
    fun y hy => ((h.related x y).1 hy).2.2
  constructor
  · intro a e
    rw [Links.owner?, howners, joined_push]
    apply (h.owner a e).trans
    apply and_congr_right
    intro ha
    simp [hno ha]
  · intro e a
    rw [Links.ownedBy, howners, joined_push]
    apply (h.owned e a).trans
    apply and_congr_right
    intro _
    apply and_congr_right
    intro ha
    simp [show ¬c.Joins e a from fun hj => hno ha hj.symm]
  · intro e e'
    rw [Links.mem_relatedTo_relate, Links.mem_relatedTo_relate, h.related, joined_push]
    constructor
    · rintro ((⟨hx, hy, hj⟩ | ⟨rfl, rfl⟩) | ⟨rfl, rfl⟩)
      · exact ⟨hx, hy, .inl hj⟩
      · exact ⟨he, he', .inr (.inl ⟨rfl, rfl⟩)⟩
      · exact ⟨he', he, .inr (.inr ⟨rfl, rfl⟩)⟩
    · rintro ⟨hx, hy, hj | ⟨rfl, rfl⟩ | ⟨rfl, rfl⟩⟩
      · exact .inl (.inl ⟨hx, hy, hj⟩)
      · exact .inl (.inr ⟨rfl, rfl⟩)
      · exact .inr ⟨rfl, rfl⟩
  · intro e
    rw [Links.ownedBy, howners]
    exact pairwise_rank_push (fun a ha => ((h.owned e a).1 ha).2.2) (h.ownedOrder e)
  · intro e
    rw [Links.relatedTo_both]
    by_cases h₁ : e = c.first
    · rw [if_pos h₁, h₁]
      exact pairwise_enlist (hjoined _) (h.relatedOrder _) (hfresh he he')
    · rw [if_neg h₁]
      by_cases h₂ : e = c.second
      · rw [if_pos h₂, h₂]
        exact pairwise_enlist (hjoined _) (h.relatedOrder _) (hfresh he' he)
      · rw [if_neg h₂]
        exact pairwise_rank_push (hjoined e) (h.relatedOrder e)

theorem Links.owner?_push {a e x : Nat} (h : l.owner? a = none) :
    ({ l with owners := l.owners ++ [(a, e)] } : Links).owner? x =
      if x = a then some e else l.owner? x := by
  unfold owner? at h ⊢
  rw [List.lookup_append]
  by_cases hx : x = a
  · simp [hx, h]
  · simp [hx, List.lookup_cons, beq_eq_false_iff_ne.2 hx]

theorem Links.ownedBy_push (a e x : Nat) :
    ({ l with owners := l.owners ++ [(a, e)] } : Links).ownedBy x =
      if x = e then l.ownedBy x ++ [a] else l.ownedBy x := by
  unfold ownedBy
  by_cases hx : x = e
  · simp [hx]
  · simp [hx, Ne.symm hx]

/-- The only attribute and entity that a mixed connector joins. -/
theorem Diagram.Distinct.eq_of_joins (hd : d.Distinct) {a e a' e' : Nat} (ha : d.IsAttribute a)
    (he : d.IsEntity e) (ha' : d.IsAttribute a') (he' : d.IsEntity e') (h : c.Joins a e)
    (h' : c.Joins a' e') : a' = a ∧ e' = e := by
  rcases h with ⟨rfl, rfl⟩ | ⟨rfl, rfl⟩ <;> rcases h' with ⟨h₁, h₂⟩ | ⟨h₁, h₂⟩
  · exact ⟨h₁.symm, h₂.symm⟩
  · exact (hd.not_both (h₁ ▸ he') ha).elim
  · exact (hd.not_both he (h₁ ▸ ha')).elim
  · exact ⟨h₂.symm, h₁.symm⟩

theorem Diagram.Distinct.not_joins_entities (hd : d.Distinct) {a e x y : Nat}
    (ha : d.IsAttribute a) (h : c.Joins a e) (hx : d.IsEntity x) (hy : d.IsEntity y) :
    ¬c.Joins x y := by
  intro hj
  rcases h with ⟨rfl, -⟩ | ⟨-, rfl⟩ <;> rcases hj with ⟨rfl, rfl⟩ | ⟨rfl, rfl⟩
  · exact hd.not_both hx ha
  · exact hd.not_both hy ha
  · exact hd.not_both hy ha
  · exact hd.not_both hx ha

/-- Who has no owner is not joined to an entity yet. -/
theorem Resolved.not_joined (h : Resolved d cs l) {a e : Nat} (ha : d.IsAttribute a)
    (hnone : l.owner? a = none) (he : d.IsEntity e) : ¬Joined cs a e := by
  intro hj
  rw [(h.owner a e).2 ⟨ha, he, hj⟩] at hnone
  cases hnone

theorem Resolved.own (h : Resolved d cs l) (hd : d.Distinct) {a e : Nat} (ha : d.IsAttribute a)
    (he : d.IsEntity e) (hj : c.Joins a e) (hnone : l.owner? a = none) :
    Resolved d (cs ++ [c]) { l with owners := l.owners ++ [(a, e)] } := by
  have hfresh {e' : Nat} (he' : d.IsEntity e') : ¬Joined cs a e' := h.not_joined ha hnone he'
  have hrel {x y : Nat} (hx : d.IsEntity x) (hy : d.IsEntity y) : ¬c.Joins x y :=
    hd.not_joins_entities ha hj hx hy
  constructor
  · intro a' e'
    rw [Links.owner?_push hnone, joined_push]
    by_cases hx : a' = a
    · rw [if_pos hx, hx, Option.some.injEq]
      constructor
      · rintro rfl
        exact ⟨ha, he, .inr hj⟩
      · rintro ⟨-, he', hj' | hj'⟩
        · exact (hfresh he' hj').elim
        · exact (hd.eq_of_joins ha he ha he' hj hj').2.symm
    · rw [if_neg hx, h.owner]
      refine and_congr_right fun ha' => and_congr_right fun he' => ⟨.inl, ?_⟩
      rintro (hj' | hj')
      · exact hj'
      · exact absurd (hd.eq_of_joins ha he ha' he' hj hj').1 hx
  · intro e' a'
    rw [Links.ownedBy_push, joined_push]
    by_cases hx : e' = e
    · rw [if_pos hx, hx, List.mem_append, List.mem_singleton, h.owned]
      constructor
      · rintro (⟨he', ha', hj'⟩ | rfl)
        · exact ⟨he', ha', .inl hj'⟩
        · exact ⟨he, ha, .inr hj.symm⟩
      · rintro ⟨he', ha', hj' | hj'⟩
        · exact .inl ⟨he', ha', hj'⟩
        · exact .inr (hd.eq_of_joins ha he ha' he' hj hj'.symm).1
    · rw [if_neg hx, h.owned]
      refine and_congr_right fun he' => and_congr_right fun ha' => ⟨.inl, ?_⟩
      rintro (hj' | hj')
      · exact hj'
      · exact absurd (hd.eq_of_joins ha he ha' he' hj hj'.symm).2 hx
  · intro e₁ e₂
    rw [joined_push]
    apply (h.related e₁ e₂).trans
    apply and_congr_right
    intro h₁
    apply and_congr_right
    intro h₂
    simp [hrel h₁ h₂]
  · intro e'
    rw [Links.ownedBy_push]
    have hjoined : ∀ x ∈ l.ownedBy e', Joined cs e' x := fun x hx => ((h.owned e' x).1 hx).2.2
    by_cases hx : e' = e
    · rw [if_pos hx]
      apply pairwise_rank_snoc hjoined (h.ownedOrder e')
      exact fun hj' => hfresh (hx ▸ he) (joined_symm.1 hj')
    · rw [if_neg hx]
      exact pairwise_rank_push hjoined (h.ownedOrder e')
  · intro e'
    exact pairwise_rank_push (fun x hx => ((h.related e' x).1 hx).2.2) (h.relatedOrder e')

end Schemata.Edge
