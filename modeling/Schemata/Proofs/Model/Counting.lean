import Schemata.Proofs.Model.History

/-!
# Schemata without counting columns

To end the counting of every column is a change by operations too, so the schema without counting is
as reachable as the schema itself.
-/
namespace Schemata

/-- Changing the first `n` elements of a list one after the other. -/
theorem getElem?_foldl_modify {α : Type} (f : α → α) (l : List α) (n j : Nat) :
    ((List.range n).foldl (fun l i => l.modify i f) l)[j]? =
      if j < n then l[j]?.map f else l[j]? := by
  induction n with
  | zero => rfl
  | succ n ih =>
    rw [List.range_succ, List.foldl_append, List.foldl_cons, List.foldl_nil, List.getElem?_modify,
      ih]
    split_ifs <;> first | omega | simp

namespace Schema
variable {s : Schema}

/-- With the automatic counting of every column ended. -/
def withoutCounting (s : Schema) : Schema :=
  { s with fields := s.fields.map (·.set (.autoIncrement false)) }

theorem field?_withoutCounting (f : FieldId) :
    s.withoutCounting.field? f = (s.field? f).map (·.set (.autoIncrement false)) :=
  List.getElem?_map

/-- Where there is no such field, nothing is changed either way. -/
theorem after_updateField (s : Schema) (f : FieldId) (settings : List Setting) :
    s.after (.updateField f settings) = s.modifyField f (·.setAll settings) := by
  unfold Schema.after
  cases hf : s.field? f with
  | some a =>
    have hc : s.updateField f settings = .ok _ := updateField_eq_ok_iff.2 ⟨a, hf, rfl⟩
    simp [apply, hc, Except.map, Change.map]
  | none =>
    have hlength : s.fields.length ≤ f.index := List.getElem?_eq_none_iff.1 hf
    have hsame : s.modifyField f (·.setAll settings) = s :=
      congrArg (Schema.mk s.tables) (List.modify_eq_self hlength)
    rw [hsame, apply, updateField, requireField, hf]
    rfl

theorem reachable_withoutCounting (h : Reachable s) : Reachable s.withoutCounting := by
  have hrun (n : Nat) : Reachable { s with
      fields := (List.range n).foldl (·.modify · (·.set (.autoIncrement false))) s.fields } := by
    induction n with
    | zero => exact h
    | succ n ih =>
      rw [List.range_succ, List.foldl_append]
      have hstep := ih.after (.updateField ⟨n⟩ [.autoIncrement false])
      rwa [after_updateField] at hstep
  have hall : (List.range s.fields.length).foldl (·.modify · (·.set (.autoIncrement false)))
      s.fields = s.fields.map (·.set (.autoIncrement false)) := by
    ext j : 1
    rw [getElem?_foldl_modify, List.getElem?_map]
    split_ifs with hj
    · rfl
    · rw [List.getElem?_eq_none (Nat.le_of_not_lt hj)]
      rfl
  have hreach := hrun s.fields.length
  rwa [hall] at hreach

end Schema
end Schemata
