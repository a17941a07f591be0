import Schemata.Edge.Links
import Mathlib.Data.List.Nodup
import Mathlib.Data.List.Infix

/-!
# What connectors mean

Which figures a list of connectors joins, when such a list is lawful, and what it then says about
owners and relations. Nothing here depends on the order of the list but the order of its answers.
-/
namespace Schemata.Edge

/-- The word stands somewhere in the text. -/
theorem occurs_iff (word s : List Char) : Text.occurs word s = true ↔ word <:+: s := by
  induction s with
  | nil => simp [Text.occurs]
  | cons c s ih => simp [Text.occurs, ih, List.infix_cons_iff]

/-- The two ends of the connector, either way round. -/
def Connector.Joins (c : Connector) (x y : Nat) : Prop :=
  c.first = x ∧ c.second = y ∨ c.first = y ∧ c.second = x

instance (c : Connector) (x y : Nat) : Decidable (c.Joins x y) :=
  inferInstanceAs (Decidable (_ ∨ _))

/-- Both ends stand for many. -/
def Connector.BothMany (c : Connector) : Prop :=
  "many".toList <:+: c.firstEnd.toList ∧ "many".toList <:+: c.secondEnd.toList

theorem Connector.Joins.symm {c : Connector} {x y : Nat} (h : c.Joins x y) : c.Joins y x :=
  Or.symm h

theorem Connector.isManyToMany_iff (c : Connector) : c.isManyToMany = true ↔ c.BothMany := by
  rw [isManyToMany, Bool.and_eq_true]
  exact and_congr (occurs_iff _ _) (occurs_iff _ _)

def Joined (cs : List Connector) (x y : Nat) : Prop := ∃ c ∈ cs, c.Joins x y

/-- The place of the first connector that joins two figures. -/
def rank (cs : List Connector) (x y : Nat) : Nat := cs.findIdx fun c => decide (c.Joins x y)

namespace Diagram

def IsEntity (d : Diagram) (id : Nat) : Prop := ∃ e ∈ d.entities, e.id = id

def IsAttribute (d : Diagram) (id : Nat) : Prop := ∃ a ∈ d.attributes, a.id = id

/-- No two figures have the same id. -/
def Distinct (d : Diagram) : Prop :=
  (d.entities.map (·.id) ++ d.attributes.map (·.id)).Nodup

instance (d : Diagram) : Decidable d.Distinct := inferInstanceAs (Decidable (List.Nodup _))

end Diagram

/-- The rules for connectors. -/
structure Lawful (d : Diagram) (cs : List Connector) : Prop where
  /-- No connector joins two attributes, nor an attribute with itself. -/
  plain : ∀ c ∈ cs, ¬(d.IsAttribute c.first ∧ d.IsAttribute c.second)
  /-- No connector between entities stands for many at both ends. -/
  notMany : ∀ c ∈ cs, d.IsEntity c.first → d.IsEntity c.second → ¬c.BothMany
  /-- All entities that an attribute is joined to are one. -/
  oneOwner : ∀ a e e', d.IsAttribute a → d.IsEntity e → d.IsEntity e' →
    Joined cs a e → Joined cs a e' → e = e'

/-- How a connector breaks the rules after others that do not. -/
inductive Breaks (d : Diagram) (earlier : List Connector) (c : Connector) : ParseError → Prop
  | composite (ha : d.IsAttribute c.first) (ha' : d.IsAttribute c.second) :
    Breaks d earlier c .compositeAttributes
  | many (e e' : Entity) (he : e ∈ d.entities) (he' : e' ∈ d.entities) (h : c.first = e.id)
    (h' : c.second = e'.id) (hm : c.BothMany) : Breaks d earlier c (.manyToMany e.name e'.name)
  | multiple (a : Attribute) (e e' : Nat) (ha : a ∈ d.attributes) (he : d.IsEntity e)
    (he' : d.IsEntity e') (h : c.Joins a.id e) (h' : Joined earlier a.id e') (hne : e' ≠ e) :
    Breaks d earlier c (.multipleTables a.name)

/-- The attributes of an entity, in the order in which it got them. -/
def Links.ownedBy (l : Links) (entity : Nat) : List Nat :=
  l.owners.filterMap fun p => if p.2 = entity then some p.1 else none

/-- What the connectors say, and in the order in which they first say it. -/
structure Resolved (d : Diagram) (cs : List Connector) (l : Links) : Prop where
  owner : ∀ a e, l.owner? a = some e ↔ d.IsAttribute a ∧ d.IsEntity e ∧ Joined cs a e
  owned : ∀ e a, a ∈ l.ownedBy e ↔ d.IsEntity e ∧ d.IsAttribute a ∧ Joined cs e a
  related : ∀ e e', e' ∈ l.relatedTo e ↔ d.IsEntity e ∧ d.IsEntity e' ∧ Joined cs e e'
  ownedOrder : ∀ e, (l.ownedBy e).Pairwise fun a b => rank cs e a < rank cs e b
  relatedOrder : ∀ e, (l.relatedTo e).Pairwise fun a b => rank cs e a < rank cs e b

/-! ### Lists of connectors -/

variable {cs : List Connector} {c : Connector} {d : Diagram} {x y : Nat}

theorem joined_symm : Joined cs x y ↔ Joined cs y x :=
  ⟨fun ⟨c, hc, h⟩ => ⟨c, hc, h.symm⟩, fun ⟨c, hc, h⟩ => ⟨c, hc, h.symm⟩⟩

theorem joined_push : Joined (cs ++ [c]) x y ↔ Joined cs x y ∨ c.Joins x y := by
  simp [Joined, or_and_right, exists_or]

theorem rank_lt_length : rank cs x y < cs.length ↔ Joined cs x y := by
  simp [rank, Joined, List.findIdx_lt_length]

theorem rank_push (h : Joined cs x y) : rank (cs ++ [c]) x y = rank cs x y := by
  have hlt := rank_lt_length.2 h
  rw [rank, List.findIdx_append]
  exact if_pos hlt

theorem length_le_rank_push (h : ¬Joined cs x y) : cs.length ≤ rank (cs ++ [c]) x y := by
  have hge := mt rank_lt_length.1 h
  unfold rank at hge ⊢
  rw [List.findIdx_append, if_neg hge]
  omega

/-- The order of partners already joined does not depend on later connectors. -/
theorem pairwise_rank_push {ys : List Nat} (hys : ∀ y ∈ ys, Joined cs x y)
    (h : ys.Pairwise fun a b => rank cs x a < rank cs x b) :
    ys.Pairwise fun a b => rank (cs ++ [c]) x a < rank (cs ++ [c]) x b := by
  apply h.imp_of_mem
  intro a b ha hb hab
  rw [rank_push (hys a ha), rank_push (hys b hb)]
  exact hab

/-- A partner that is joined last comes last. -/
theorem pairwise_rank_snoc {ys : List Nat} (hys : ∀ y ∈ ys, Joined cs x y)
    (h : ys.Pairwise fun a b => rank cs x a < rank cs x b) (hy : ¬Joined cs x y) :
    (ys ++ [y]).Pairwise fun a b => rank (cs ++ [c]) x a < rank (cs ++ [c]) x b := by
  rw [List.pairwise_append]
  refine ⟨pairwise_rank_push hys h, List.pairwise_singleton _ _, ?_⟩
  intro a ha b hb
  rw [List.mem_singleton.1 hb, rank_push (hys a ha)]
  have hlt := rank_lt_length.2 (hys a ha)
  have hge := length_le_rank_push (c := c) hy
  omega

theorem Lawful.of_append {cs' : List Connector} (h : Lawful d (cs ++ cs')) : Lawful d cs where
  plain c hc := h.plain c (List.mem_append_left _ hc)
  notMany c hc := h.notMany c (List.mem_append_left _ hc)
  oneOwner a e e' ha he he' hj hj' := by
    apply h.oneOwner a e e' ha he he'
    · exact hj.imp fun c hc => ⟨List.mem_append_left _ hc.1, hc.2⟩
    · exact hj'.imp fun c hc => ⟨List.mem_append_left _ hc.1, hc.2⟩

theorem Breaks.not_lawful {err : ParseError} (h : Breaks d cs c err) : ¬Lawful d (cs ++ [c]) := by
  have hc : c ∈ cs ++ [c] := List.mem_append_right _ List.mem_cons_self
  intro hl
  cases h with
  | composite ha ha' => exact hl.plain c hc ⟨ha, ha'⟩
  | many e e' he he' h h' hm => exact hl.notMany c hc ⟨e, he, h.symm⟩ ⟨e', he', h'.symm⟩ hm
  | multiple a e e' ha he he' h h' hne =>
    exact hne (hl.oneOwner a.id e' e ⟨a, ha, rfl⟩ he' he (joined_push.2 (.inl h'))
      (joined_push.2 (.inr h)))

end Schemata.Edge
