import Schemata.Proofs.Lists
import Schemata.Proofs.Model.Refusals

/-!
# Relating tables

Tables that are listed as related stay where they are in the list; others are added at its end. Once
the table of a field is related to that of another one, the field can be bound.
-/
namespace Schemata.Schema
variable {s : Schema} {table related : TableId} {native foreign : FieldId}

/-- With tables listed as related to a table. -/
def withRelated (s : Schema) (table : TableId) (related : List TableId) : Schema :=
  s.modifyTable table fun t => { t with related := related.foldl enlist t.related }

theorem table?_withRelated (table : TableId) (related : List TableId) (id : TableId) :
    (s.withRelated table related).table? id = if id = table then
      (s.table? table).map fun t => { t with related := related.foldl enlist t.related }
    else s.table? id :=
  table?_modifyTable table id _

theorem withRelated_nil (s : Schema) (table : TableId) : s.withRelated table [] = s :=
  modifyTable_id s table

theorem withRelated_cons (s : Schema) (table id : TableId) (related : List TableId) :
    s.withRelated table (id :: related) = (s.withRelated table [id]).withRelated table related := by
  rw [withRelated, withRelated, withRelated, modifyTable_modifyTable]
  rfl

theorem grows_withRelated (s : Schema) (table : TableId) (related : List TableId) :
    Grows s (s.withRelated table related) :=
  ⟨by simp [withRelated, modifyTable], Nat.le_refl _⟩

theorem addRelated_eq (ht : s.HasTable table) (hrelated : s.HasTable related) :
    ∃ c, s.addRelated table related = .ok c ∧ c.schema = s.withRelated table [related] := by
  obtain ⟨t, ht⟩ := ht
  refine ⟨_, addRelated_eq_ok_iff.2 ⟨t, ht, hrelated, rfl⟩, ?_⟩
  by_cases hmem : related ∈ t.related
  · have hsame : s.withRelated table [related] = s.modifyTable table id := by
      apply modifyTable_congr
      intro t' ht'
      cases ht.symm.trans ht'
      simp [enlist, hmem]
    rw [if_pos hmem, hsame, modifyTable_id]
  · rw [if_neg hmem]
    apply modifyTable_congr
    intro t' ht'
    cases ht.symm.trans ht'
    simp [enlist, hmem]

theorem bind_eq {f g : Field} (hf : s.field? native = some f) (hg : s.field? foreign = some g)
    (ht : s.HasTable f.table) :
    ∃ c, (s.withRelated f.table [g.table]).bind native foreign = .ok c ∧
      c.schema = (s.withRelated f.table [g.table]).withBinding f.table native foreign := by
  obtain ⟨t, ht⟩ := ht
  have hrelated : (s.withRelated f.table [g.table]).table? f.table =
      some { t with related := enlist t.related g.table } := by
    rw [table?_withRelated, if_pos rfl, ht]
    rfl
  exact ⟨_, bind_eq_ok_iff.2 ⟨f, g, _, hf, hg, hrelated, mem_enlist.2 (.inr rfl), rfl⟩, rfl⟩

/-! ### Acceptance -/

theorem exists_addRelated (ht : s.HasTable table) (hrelated : s.HasTable related) :
    ∃ c, s.addRelated table related = .ok c ∧ Grows s c.schema := by
  obtain ⟨c, hc, -⟩ := addRelated_eq ht hrelated
  exact ⟨c, hc, grows_addRelated hc⟩

/-- Once the tables of two fields are related, the one can reference the other. -/
theorem exists_bind {f g : Field} (hf : s.field? native = some f) (hg : s.field? foreign = some g)
    {c : Change Unit} (hc : s.addRelated f.table g.table = .ok c) :
    ∃ c', c.schema.bind native foreign = .ok c' ∧ Grows c.schema c'.schema := by
  obtain ⟨t, ht, hrelated, -⟩ := addRelated_eq_ok_iff.1 hc
  obtain ⟨c₁, hc₁, hschema⟩ := addRelated_eq ⟨t, ht⟩ hrelated
  cases hc.symm.trans hc₁
  obtain ⟨c', hc', -⟩ := bind_eq hf hg ⟨t, ht⟩
  rw [← hschema] at hc'
  exact ⟨c', hc', grows_bind hc'⟩

end Schemata.Schema
