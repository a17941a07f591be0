import Schemata.Keyed
import Mathlib.Data.List.Nodup

/-!
# Look-ups in ordered maps

After an insertion or an erasure a map answers as before at every other key. Its entries are
exactly the answers that it gives, one for each key.
-/
namespace Schemata.Keyed
variable {κ α : Type} [DecidableEq κ]

/-- Where no key repeats, an entry is what the look-up of its key answers. -/
theorem mem_iff_lookup {l : List (κ × α)} (hl : (l.map Prod.fst).Nodup) (k : κ) (v : α) :
    (k, v) ∈ l ↔ l.lookup k = some v := by
  induction l with
  | nil => simp
  | cons e rest ih =>
    rw [List.map_cons, List.nodup_cons] at hl
    have hrest := ih hl.2
    rw [List.lookup_cons, List.mem_cons]
    by_cases hk : k = e.1
    · have hfresh : (k, v) ∉ rest := by
        intro h
        exact hl.1 (hk ▸ List.mem_map_of_mem h)
      simp [hk, Prod.ext_iff, eq_comm, hk ▸ hfresh]
    · have hne : (k, v) ≠ e := fun h => hk (congrArg Prod.fst h)
      simp [hne, beq_eq_false_iff_ne.2 hk, hrest]

theorem lookup_filter_ne (k k' : κ) (l : List (κ × α)) :
    (l.filter (·.1 != k)).lookup k' = if k' = k then none else l.lookup k' := by
  induction l with
  | nil => simp
  | cons e rest ih =>
    by_cases he : e.1 = k
    · rw [List.filter_cons_of_neg (by simp [he]), ih, List.lookup_cons]
      by_cases hk : k' = k
      · simp [hk]
      · simp [hk, he, beq_eq_false_iff_ne.2 hk]
    · rw [List.filter_cons_of_pos (by simp [he]), List.lookup_cons, List.lookup_cons, ih]
      by_cases hk : k' = e.1
      · simp [hk, he]
      · simp [beq_eq_false_iff_ne.2 hk]

variable [LT κ]

@[simp] theorem get?_empty (k : κ) : (∅ : Keyed κ α).get? k = none := rfl

@[simp] theorem get?_erase (m : Keyed κ α) (k k' : κ) :
    (m.erase k).get? k' = if k' = k then none else m.get? k' := lookup_filter_ne k k' m.entries

section Order
variable [LinearKey κ]

omit [DecidableEq κ] in
theorem keys_nodup (m : Keyed κ α) : (m.entries.map Prod.fst).Nodup := by
  rw [List.Nodup, List.pairwise_map]
  apply m.ascending.imp
  intro a b hab he
  rw [he] at hab
  exact LinearKey.irrefl b.1 hab

theorem mem_keys_iff (m : Keyed κ α) (k : κ) :
    k ∈ m.entries.map Prod.fst ↔ ∃ v, m.get? k = some v := by
  simp [get?, ← mem_iff_lookup m.keys_nodup]

/-- Maps that answer alike have the same entries, and there is only one order for these. -/
theorem ext_get? {m m' : Keyed κ α} (h : ∀ k, m.get? k = m'.get? k) : m = m' := by
  have hmem (m : Keyed κ α) (e : κ × α) : e ∈ m.entries ↔ m.get? e.1 = some e.2 :=
    mem_iff_lookup m.keys_nodup e.1 e.2
  have hentries : m.entries = m'.entries := by
    have hperm : m.entries.Perm m'.entries := by
      rw [List.perm_ext_iff_of_nodup m.keys_nodup.of_map m'.keys_nodup.of_map]
      exact fun e => (hmem m e).trans (h e.1 ▸ (hmem m' e).symm)
    apply hperm.eq_of_pairwise _ m.ascending m'.ascending
    exact fun a b _ _ hab hba => absurd (LinearKey.trans hab hba) (LinearKey.irrefl a.1)
  cases m
  cases m'
  cases hentries
  rfl

variable [DecidableLT κ]

theorem lookup_place (k k' : κ) (v : α) (l : List (κ × α)) :
    (place k v l).lookup k' = if k' = k then some v else l.lookup k' := by
  induction l with
  | nil =>
    rw [place, List.lookup_cons]
    by_cases hk : k' = k
    · simp [hk]
    · simp [hk, beq_eq_false_iff_ne.2 hk]
  | cons e rest ih =>
    unfold place
    by_cases h₁ : k < e.1
    · rw [if_pos h₁, List.lookup_cons]
      by_cases hk : k' = k
      · simp [hk]
      · simp [hk, beq_eq_false_iff_ne.2 hk]
    · rw [if_neg h₁]
      by_cases h₂ : e.1 < k
      · have hne : e.1 ≠ k := by
          intro he
          rw [he] at h₂
          exact LinearKey.irrefl k h₂
        rw [if_pos h₂, List.lookup_cons, List.lookup_cons, ih]
        by_cases hk : k' = e.1
        · simp [hk, hne]
        · simp [beq_eq_false_iff_ne.2 hk]
      · have he : k = e.1 := LinearKey.eq_of_not_lt h₁ h₂
        rw [if_neg h₂, List.lookup_cons, List.lookup_cons, ← he]
        by_cases hk : k' = k
        · simp [hk]
        · simp [hk, beq_eq_false_iff_ne.2 hk]

@[simp] theorem get?_insert (m : Keyed κ α) (k k' : κ) (v : α) :
    (m.insert k v).get? k' = if k' = k then some v else m.get? k' :=
  lookup_place k k' v m.entries

end Order
end Schemata.Keyed
