import Schemata.Proofs.Edge.Resolution
import Schemata.Proofs.Outcome

/-!
# Resolving connectors

Going through connectors in order, each held against what the earlier ones have said, gives the same
as their meaning all at once. A step extends the meaning of a prefix by one connector or finds the
rule that it breaks; a run is the induction over the connectors that are left.
-/
namespace Schemata.Edge
variable {d : Diagram} {cs : List Connector} {c : Connector} {l : Links}

/-- What one connector leads to after lawful ones whose links are known. -/
def StepsTo (d : Diagram) (cs : List Connector) (c : Connector) (r : Except ParseError Links) :
    Prop :=
  (∃ l, r = .ok l ∧ Lawful d (cs ++ [c]) ∧ Resolved d (cs ++ [c]) l) ∨
    ∃ err, r = .error err ∧ Breaks d cs c err

theorem stepsTo_both (hd : d.Distinct) (hl : Lawful d cs) (hr : Resolved d cs l) {e e' : Entity}
    (he : e ∈ d.entities) (he' : e' ∈ d.entities) (h : c.first = e.id) (h' : c.second = e'.id) :
    StepsTo d cs c (if c.isManyToMany then .error (.manyToMany e.name e'.name)
      else .ok ((l.relate e.id e'.id).relate e'.id e.id)) := by
  have hx : d.IsEntity c.first := ⟨e, he, h.symm⟩
  have hy : d.IsEntity c.second := ⟨e', he', h'.symm⟩
  by_cases hm : c.isManyToMany = true
  · rw [if_pos hm]
    exact .inr ⟨_, rfl, .many e e' he he' h h' (c.isManyToMany_iff.1 hm)⟩
  · rw [if_neg hm, ← h, ← h']
    refine .inl ⟨_, rfl, hl.push ?_ ?_ ?_, hr.relate hd hx hy⟩
    · exact fun ha => hd.not_both hx ha.1
    · exact fun _ _ hb => hm (c.isManyToMany_iff.2 hb)
    · rintro a x y ha - - (⟨rfl, -⟩ | ⟨-, rfl⟩)
      · exact (hd.not_both hx ha).elim
      · exact (hd.not_both hy ha).elim

theorem stepsTo_own (hd : d.Distinct) (hl : Lawful d cs) (hr : Resolved d cs l) {a : Attribute}
    {e : Entity} (ha : a ∈ d.attributes) (he : e ∈ d.entities) (hj : c.Joins a.id e.id) :
    StepsTo d cs c (l.own a e) := by
  have hia : d.IsAttribute a.id := ⟨a, ha, rfl⟩
  have hie : d.IsEntity e.id := ⟨e, he, rfl⟩
  have hlawful (h : ∀ e', d.IsEntity e' → Joined cs a.id e' → e' = e.id) :
      Lawful d (cs ++ [c]) := by
    apply hl.push
    · rintro ⟨h₁, h₂⟩
      rcases hj with ⟨-, hx⟩ | ⟨hx, -⟩
      · exact hd.not_both hie (hx ▸ h₂)
      · exact hd.not_both hie (hx ▸ h₁)
    · exact fun h₁ h₂ _ => hd.not_joins_entities hia hj h₁ h₂ (.inl ⟨rfl, rfl⟩)
    · intro b x y hb hx hy hbx hby
      obtain ⟨rfl, rfl⟩ := hd.eq_of_joins hia hie hb hx hj hbx
      rcases hby with hby | hby
      · exact (h y hy hby).symm
      · exact (hd.eq_of_joins hia hie hb hy hj hby).2.symm
  unfold Links.own
  cases ho : l.owner? a.id with
  | none =>
    refine .inl ⟨_, rfl, hlawful ?_, hr.own hd hia hie hj ho⟩
    exact fun e' he' hj' => (hr.not_joined hia ho he' hj').elim
  | some o =>
    obtain ⟨-, hio, hjo⟩ := (hr.owner a.id o).1 ho
    dsimp only
    by_cases hoe : o = e.id
    · subst hoe
      rw [if_pos rfl]
      refine .inl ⟨_, rfl, hlawful ?_, hr.push_same ?_ ?_⟩
      · exact fun e' he' hj' => hl.oneOwner _ _ _ hia he' hie hj' hjo
      · intro b x hb hx hbx
        obtain ⟨rfl, rfl⟩ := hd.eq_of_joins hia hie hb hx hj hbx
        exact hjo
      · exact fun x y hx hy hxy => (hd.not_joins_entities hia hj hx hy hxy).elim
    · rw [if_neg hoe]
      exact .inr ⟨_, rfl, .multiple a e.id o ha hie hio hj hjo hoe⟩

/-- A connector with an end that is no figure says nothing. -/
theorem stepsTo_nothing (hl : Lawful d cs) (hr : Resolved d cs l)
    (h : ¬(d.IsEntity c.first ∨ d.IsAttribute c.first) ∨
      ¬(d.IsEntity c.second ∨ d.IsAttribute c.second)) : StepsTo d cs c (.ok l) := by
  have hno {x y : Nat} (hx : d.IsEntity x ∨ d.IsAttribute x) (hy : d.IsEntity y ∨ d.IsAttribute y) :
      ¬c.Joins x y := by
    rintro (⟨rfl, rfl⟩ | ⟨rfl, rfl⟩)
    · exact h.elim (· hx) (· hy)
    · exact h.elim (· hy) (· hx)
  refine .inl ⟨l, rfl, hl.push ?_ ?_ ?_, hr.push_same ?_ ?_⟩
  · exact fun ha => h.elim (· (.inr ha.1)) (· (.inr ha.2))
  · exact fun h₁ h₂ => (h.elim (· (.inl h₁)) (· (.inl h₂))).elim
  · exact fun a x _ ha hx _ hj => (hno (.inr ha) (.inl hx) hj).elim
  · exact fun a x ha hx hj => (hno (.inr ha) (.inl hx) hj).elim
  · exact fun x y hx hy hj => (hno (.inl hx) (.inl hy) hj).elim

theorem stepsTo_connect (hd : d.Distinct) (hl : Lawful d cs) (hr : Resolved d cs l)
    (c : Connector) : StepsTo d cs c (d.connect l c) := by
  unfold Diagram.connect
  rcases hd.figure_cases c.first with
    ⟨a, ha, hia, hfa, hfe⟩ | ⟨e, he, hie, hfe, hfa⟩ | ⟨⟨hfe, hfa⟩, hne, hna⟩ <;>
  rcases hd.figure_cases c.second with
    ⟨a', ha', hia', hsa, hse⟩ | ⟨e', he', hie', hse, hsa⟩ | ⟨⟨hse, hsa⟩, hne', hna'⟩ <;>
  simp only [hfa, hfe, hsa, hse, Option.or_some, Option.or_none]
  · exact .inr ⟨_, rfl, .composite ⟨a, ha, hia⟩ ⟨a', ha', hia'⟩⟩
  · exact stepsTo_own hd hl hr ha he' (.inl ⟨hia.symm, hie'.symm⟩)
  · exact stepsTo_nothing hl hr (.inr (not_or_intro hne' hna'))
  · exact stepsTo_own hd hl hr ha' he (.inr ⟨hie.symm, hia'.symm⟩)
  · exact stepsTo_both hd hl hr he he' hie.symm hie'.symm
  · exact stepsTo_nothing hl hr (.inr (not_or_intro hne' hna'))
  · exact stepsTo_nothing hl hr (.inl (not_or_intro hne hna))
  · exact stepsTo_nothing hl hr (.inl (not_or_intro hne hna))
  · exact stepsTo_nothing hl hr (.inl (not_or_intro hne hna))

/-- What all connectors of a list lead to: their meaning, or the fault of the first that breaks a
rule. -/
def RunsTo (d : Diagram) (cs : List Connector) (r : Except ParseError Links) : Prop :=
  (∃ l, r = .ok l ∧ Lawful d cs ∧ Resolved d cs l) ∨
    ∃ err earlier c later, r = .error err ∧ cs = earlier ++ c :: later ∧ Lawful d earlier ∧
      Breaks d earlier c err

theorem runsTo_foldlM (hd : d.Distinct) (rest : List Connector) (hl : Lawful d cs)
    (hr : Resolved d cs l) : RunsTo d (cs ++ rest) (rest.foldlM d.connect l) := by
  induction rest generalizing cs l with
  | nil => exact .inl ⟨l, rfl, by simpa using hl, by simpa using hr⟩
  | cons c rest ih =>
    rw [List.foldlM_cons]
    rcases stepsTo_connect hd hl hr c with ⟨l', he, hl', hr'⟩ | ⟨err, he, hb⟩
    · rw [he, show cs ++ c :: rest = cs ++ [c] ++ rest by simp]
      exact ih hl' hr'
    · rw [he]
      exact .inr ⟨err, cs, c, rest, rfl, rfl, hl, hb⟩

theorem lawful_nil : Lawful d [] := ⟨by simp, by simp, by simp [Joined]⟩

theorem resolved_nil : Resolved d [] {} := by
  constructor <;> simp [Links.owner?, Links.ownedBy, Links.relatedTo, Joined]

theorem runsTo_links (hd : d.Distinct) : RunsTo d d.connectors d.links :=
  runsTo_foldlM hd d.connectors lawful_nil resolved_nil

theorem connect_eq_self (hd : d.Distinct) (l : Links)
    (h : (d.isFigure c.first && d.isFigure c.second) = false) : d.connect l c = .ok l := by
  unfold Diagram.isFigure at h
  unfold Diagram.connect
  rcases hd.figure_cases c.first with
    ⟨a, ha, hia, hfa, hfe⟩ | ⟨e, he, hie, hfe, hfa⟩ | ⟨⟨hfe, hfa⟩, -⟩ <;>
  rcases hd.figure_cases c.second with
    ⟨a', ha', hia', hsa, hse⟩ | ⟨e', he', hie', hse, hsa⟩ | ⟨⟨hse, hsa⟩, -⟩ <;>
  simp [hfa, hfe, hsa, hse] at h ⊢

/-- Connectors with an end that is no figure may as well not be there. -/
theorem links_filter_figures (hd : d.Distinct) :
    ({ d with connectors := d.connectors.filter fun c =>
      d.isFigure c.first && d.isFigure c.second } : Diagram).links = d.links := by
  unfold Diagram.links
  change (d.connectors.filter _).foldlM d.connect {} = d.connectors.foldlM d.connect {}
  generalize ({} : Links) = l
  generalize d.connectors = cs
  induction cs generalizing l with
  | nil => rfl
  | cons c cs ih =>
    cases h : d.isFigure c.first && d.isFigure c.second with
    | true =>
      rw [List.filter_cons, if_pos h, List.foldlM_cons, List.foldlM_cons]
      exact congrArg _ (funext fun l' => ih l')
    | false =>
      rw [List.filter_cons, if_neg (by simp [h]), ih, List.foldlM_cons, connect_eq_self hd l h]
      rfl

theorem nodup_of_rank {x : Nat} {ys : List Nat}
    (h : ys.Pairwise fun a b => rank cs x a < rank cs x b) : ys.Nodup := by
  apply h.imp
  rintro a b hab rfl
  exact Nat.lt_irrefl _ hab

theorem Resolved.related_symm (h : Resolved d cs l) (e e' : Nat) :
    e' ∈ l.relatedTo e ↔ e ∈ l.relatedTo e' := by
  rw [h.related, h.related, joined_symm]
  exact and_left_comm

/-- Resolving succeeds exactly on lawful connectors, then gives their meaning, and otherwise names
the rule that is broken by the first connector after which they are no longer lawful. -/
theorem links_meaning (d : Diagram) (hd : d.Distinct) :
    ((∃ l, d.links = .ok l) ↔ Lawful d d.connectors) ∧
    (∀ l, d.links = .ok l → Resolved d d.connectors l ∧
      (∀ e, (l.ownedBy e).Nodup ∧ (l.relatedTo e).Nodup) ∧
      ∀ e e', e' ∈ l.relatedTo e ↔ e ∈ l.relatedTo e') ∧
    (∀ err, d.links = .error err → ∃ earlier c later, d.connectors = earlier ++ c :: later ∧
      Lawful d earlier ∧ ¬Lawful d (earlier ++ [c]) ∧ Breaks d earlier c err) ∧
    ({ d with connectors := d.connectors.filter fun c =>
      d.isFigure c.first && d.isFigure c.second } : Diagram).links = d.links := by
  have hrun := runsTo_links hd
  refine ⟨⟨?_, ?_⟩, ?_, ?_, links_filter_figures hd⟩
  · rintro ⟨l, hl⟩
    rcases hrun with ⟨_, -, hlaw, -⟩ | ⟨err, -, -, -, he, -⟩
    · exact hlaw
    · cases hl.symm.trans he
  · intro hlaw
    rcases hrun with ⟨l, hl, -⟩ | ⟨err, earlier, c, later, -, hcs, -, hb⟩
    · exact ⟨l, hl⟩
    · rw [hcs, List.append_cons] at hlaw
      exact (hb.not_lawful hlaw.of_append).elim
  · intro l hl
    rcases hrun with ⟨l', hl', -, hr⟩ | ⟨err, -, -, -, he, -⟩
    · cases hl.symm.trans hl'
      exact ⟨hr, fun e => ⟨nodup_of_rank (hr.ownedOrder e), nodup_of_rank (hr.relatedOrder e)⟩,
        hr.related_symm⟩
    · cases hl.symm.trans he
  · intro err he
    rcases hrun with ⟨l, hl, -⟩ | ⟨err', earlier, c, later, he', hcs, hlaw, hb⟩
    · cases he.symm.trans hl
    · cases he.symm.trans he'
      exact ⟨earlier, c, later, hcs, hlaw, hb.not_lawful, hb⟩

/-- Two entities that are joined both ways round, one of them with itself, an attribute that is
joined twice, and an end that is no figure. -/
def campus : Diagram where
  entities := [⟨1, "STUDENT"⟩, ⟨4, "COURSE"⟩]
  attributes := [⟨2, "number", true⟩, ⟨3, "name", false⟩]
  connectors := [⟨10, 3, 1, "None", "None"⟩, ⟨11, 4, 1, "many", "One"⟩, ⟨12, 1, 9, "many", "many"⟩,
    ⟨13, 1, 3, "None", "None"⟩, ⟨14, 1, 1, "None", "many"⟩, ⟨15, 1, 4, "None", "None"⟩,
    ⟨16, 1, 2, "None", "None"⟩]

theorem campus_meaning : campus.Distinct ∧ Lawful campus campus.connectors ∧
    Resolved campus campus.connectors ⟨[(3, 1), (2, 1)], [(4, 1), (1, 4), (1, 1)]⟩ := by
  have hd : campus.Distinct := by decide
  have hl : campus.links = .ok ⟨[(3, 1), (2, 1)], [(4, 1), (1, 4), (1, 1)]⟩ := by rfl
  have h := links_meaning campus hd
  exact ⟨hd, h.1.1 ⟨_, hl⟩, (h.2.1 _ hl).1⟩

end Schemata.Edge
