import Schemata.Model.Field

/-!
# Tables

A table lists its own fields as columns, the tables it may reference, the references its fields
hold, and its indexes.
-/
namespace Schemata

structure Table where
  name : String
  columns : List FieldId := []
  /-- The tables that this one may hold references into. -/
  related : List TableId := []
  /-- Each referencing field of the table with the field that it references. -/
  bindings : Keyed FieldId FieldId := ∅
  indexes : Keyed String FieldId := ∅
deriving DecidableEq

/-- Exchanges the element at a place with the one after it. -/
def swapNext {α : Type} : Nat → List α → List α
  | 0, a :: b :: rest => b :: a :: rest
  | n + 1, a :: rest => a :: swapNext n rest
  | _, l => l

theorem swapNext_swapNext {α : Type} (n : Nat) (l : List α) :
    swapNext n (swapNext n l) = l := by
  fun_induction swapNext n l with
  | case1 => rfl
  | case2 n a rest ih => simp [swapNext, ih]
  | case3 n l h₀ h₁ =>
    cases n with
    | zero =>
      match l, h₀ with
      | [], _ => rfl
      | [_], _ => rfl
      | a :: b :: rest, h => exact absurd rfl (h a b rest rfl)
    | succ n =>
      cases l with
      | nil => rfl
      | cons a rest => exact absurd rfl (h₁ n a rest rfl)

theorem swapNext_perm {α : Type} (n : Nat) (l : List α) : (swapNext n l).Perm l := by
  fun_induction swapNext n l with
  | case1 a b rest => exact List.Perm.swap a b rest
  | case2 n a rest ih => exact ih.cons a
  | case3 => exact List.Perm.refl _

namespace Table

def isRelatedTo (t : Table) (id : TableId) : Bool := t.related.contains id

/-- The field that one of the table's own fields references. -/
def boundTo? (t : Table) (native : FieldId) : Option FieldId := t.bindings.get? native

def foreignKeyCount (t : Table) : Nat := t.bindings.size

def hasColumn (t : Table) (id : FieldId) : Bool := t.columns.contains id

def position? (t : Table) (id : FieldId) : Option Nat := t.columns.findIdx? (· == id)

end Table
end Schemata
