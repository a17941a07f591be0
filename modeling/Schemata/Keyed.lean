/-!
# Finite maps in the order of their keys

A map is the list of its entries with ascending keys. Such a list has only one form, so two maps
that answer every look-up alike are equal.
-/
namespace Schemata

/-- Keys of which any two are in order or equal. -/
class LinearKey (κ : Type) [LT κ] : Prop where
  irrefl : ∀ a : κ, ¬a < a
  trans : ∀ {a b c : κ}, a < b → b < c → a < c
  eq_of_not_lt : ∀ {a b : κ}, ¬a < b → ¬b < a → a = b

instance : LinearKey String where
  irrefl := String.lt_irrefl
  trans := String.lt_trans
  eq_of_not_lt h h' := String.le_antisymm (String.not_lt.1 h') (String.not_lt.1 h)

structure Keyed (κ α : Type) [LT κ] where
  entries : List (κ × α) := []
  ascending : entries.Pairwise (fun a b => a.1 < b.1) := by simp
deriving DecidableEq

namespace Keyed
variable {κ α : Type} [LT κ]

instance : EmptyCollection (Keyed κ α) := ⟨{}⟩

instance : Inhabited (Keyed κ α) := ⟨∅⟩

def size (m : Keyed κ α) : Nat := m.entries.length

def get? [BEq κ] (m : Keyed κ α) (k : κ) : Option α := m.entries.lookup k

/-- Puts an entry in its place among ascending ones; an entry with the same key gives way. -/
def place [DecidableLT κ] (k : κ) (v : α) : List (κ × α) → List (κ × α)
  | [] => [(k, v)]
  | e :: rest =>
    if k < e.1 then (k, v) :: e :: rest
    else if e.1 < k then e :: place k v rest
    else (k, v) :: rest

theorem mem_place [DecidableLT κ] {k : κ} {v : α} {x : κ × α} {l : List (κ × α)}
    (h : x ∈ place k v l) : x = (k, v) ∨ x ∈ l := by
  induction l with
  | nil => exact .inl (List.mem_singleton.1 h)
  | cons e rest ih =>
    unfold place at h
    split at h
    · exact List.mem_cons.1 h
    · split at h
      · rcases List.mem_cons.1 h with rfl | h
        · exact .inr List.mem_cons_self
        · exact (ih h).imp_right (List.mem_cons_of_mem _)
      · exact (List.mem_cons.1 h).imp_right (List.mem_cons_of_mem _)

section Order
variable [DecidableLT κ] [LinearKey κ]

theorem place_ascending (k : κ) (v : α) {l : List (κ × α)}
    (h : l.Pairwise (fun a b => a.1 < b.1)) : (place k v l).Pairwise (fun a b => a.1 < b.1) := by
  induction l with
  | nil => simp [place]
  | cons e rest ih =>
    obtain ⟨he, hrest⟩ := List.pairwise_cons.1 h
    unfold place
    split
    · rename_i hk
      refine List.pairwise_cons.2 ⟨fun x hx => ?_, h⟩
      rcases List.mem_cons.1 hx with rfl | hx
      · exact hk
      · exact LinearKey.trans hk (he x hx)
    · split
      · rename_i hk
        refine List.pairwise_cons.2 ⟨fun x hx => ?_, ih hrest⟩
        rcases mem_place hx with rfl | hx
        · exact hk
        · exact he x hx
      · rename_i h₁ h₂
        have hk : k = e.1 := LinearKey.eq_of_not_lt h₁ h₂
        exact List.pairwise_cons.2 ⟨fun x hx => hk ▸ he x hx, hrest⟩

/-- The map with the value at one key set. -/
def insert (m : Keyed κ α) (k : κ) (v : α) : Keyed κ α :=
  ⟨place k v m.entries, place_ascending k v m.ascending⟩

end Order

/-- The map without one key. -/
def erase [BEq κ] (m : Keyed κ α) (k : κ) : Keyed κ α :=
  ⟨m.entries.filter (·.1 != k), m.ascending.filter _⟩

end Keyed
end Schemata
