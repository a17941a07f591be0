import Schemata.Text.Number
import Schemata.Text.Split

/-!
# Trimming, labels and delimiters

What a reader of lines gets back of a text that has been put together from parts. Digits are neither
blanks nor delimiters, so numbers come through every cut.
-/
namespace Schemata.Text

/-! ### Trimming -/

theorem trimEnd_append (s t : List Char) :
    trimEnd (s ++ t) = if trimEnd t = [] then trimEnd s else s ++ trimEnd t := by
  unfold trimEnd
  rw [List.reverse_append, List.dropWhile_append]
  by_cases h : t.reverse.dropWhile isBlank = []
  · simp [h]
  · simp [h]

theorem trimEnd_trimEnd (s : List Char) : trimEnd (trimEnd s) = trimEnd s := by
  unfold trimEnd
  rw [List.reverse_reverse]
  congr 1
  induction s.reverse with
  | nil => rfl
  | cons c s ih =>
    by_cases h : isBlank c = true
    · rw [List.dropWhile_cons_of_pos h, ih]
    · rw [List.dropWhile_cons_of_neg h, List.dropWhile_cons_of_neg h]

/-- A text that is left as it is by trimming both ends is so by trimming one of them. -/
theorem trimEnd_of_trim {s : List Char} (h : trim s = s) : trimEnd s = s := by
  rw [← h]
  exact trimEnd_trimEnd _

theorem trim_of_forall {s : List Char} (h : ∀ c ∈ s, isBlank c = false) : trim s = s := by
  have hstart {t : List Char} (ht : ∀ c ∈ t, isBlank c = false) : t.dropWhile isBlank = t := by
    cases t with
    | nil => rfl
    | cons c t => exact trimStart_eq_self (ht c List.mem_cons_self)
  have hrev : ∀ c ∈ s.reverse, isBlank c = false := fun c hc => h c (List.mem_reverse.1 hc)
  rw [trim, trimStart, hstart h, trimEnd, hstart hrev, List.reverse_reverse]

theorem trim_ne_nil {c : Char} {s : List Char} (h : isBlank c = false) : trim (c :: s) ≠ [] := by
  rw [trim, trimStart_eq_self h, ← List.singleton_append, trimEnd_append]
  split
  · rw [show trimEnd [c] = [c] from trimEnd_eq_self (s := []) h]
    exact List.cons_ne_nil _ _
  · exact List.cons_ne_nil _ _

theorem trim_append_blank {c : Char} (h : isBlank c = true) (s : List Char) :
    trim (s ++ [c]) = trim s := by
  have hend : trimEnd [c] = [] := by simp [trimEnd, h]
  unfold trim trimStart
  rw [List.dropWhile_append]
  by_cases hs : s.dropWhile isBlank = []
  · simp [hs, h]
  · simp [hs, trimEnd_append, hend]

/-! ### Lines -/

/-- A carriage return that goes with the line feed would be trimmed off anyway. -/
theorem trim_dropReturn (line : Line) : trim (dropReturn line.reverse).reverse = trim line := by
  unfold dropReturn
  split
  · rename_i rest h
    rw [List.reverse_eq_cons_iff.1 h, trim_append_blank (by decide)]
  · rw [List.reverse_reverse]

theorem reverse_dropReturn {line : Line} (h : '\r' ∉ line) :
    (dropReturn line.reverse).reverse = line := by
  unfold dropReturn
  split
  · rename_i rest hr
    exact absurd (List.mem_reverse.1 (hr ▸ List.mem_cons_self)) h
  · exact List.reverse_reverse line

/-- Lines that are closed by line feeds come back, but for a carriage return at their ends. -/
theorem lines_flatMap {raws : List Line} (h : ∀ raw ∈ raws, '\n' ∉ raw) :
    lines (raws.flatMap (· ++ ['\n'])) = raws.map fun raw => (dropReturn raw.reverse).reverse := by
  induction raws with
  | nil => rfl
  | cons raw raws ih =>
    obtain ⟨hraw, htail⟩ := List.forall_mem_cons.1 h
    rw [List.flatMap_cons, List.append_assoc, List.singleton_append, lines,
      linesAfter_append _ _ _ hraw, List.append_nil, ih htail, List.map_cons]

theorem map_trim_lines {raws : List Line} (h : ∀ raw ∈ raws, '\n' ∉ raw) :
    (lines (raws.flatMap (· ++ ['\n']))).map trim = raws.map trim := by
  rw [lines_flatMap h, List.map_map]
  exact List.map_congr_left fun raw _ => trim_dropReturn raw

/-! ### Numbers -/

theorem isBlank_of_isDigit {c : Char} (h : c.isDigit = true) : isBlank c = false := by
  simp only [Char.isDigit, Bool.and_eq_true, decide_eq_true_eq, ge_iff_le, UInt32.le_iff_toNat_le,
    Char.toNat_val] at h
  simp only [isBlank, inRanges, blankRanges, List.any_cons, List.any_nil, Bool.or_false,
    Bool.or_eq_false_iff, Bool.and_eq_false_iff, decide_eq_false_iff_not]
  have hlow : 48 ≤ c.toNat := h.1
  have hhigh : c.toNat ≤ 57 := h.2
  clear h
  omega

theorem not_mem_decimal {c : Char} (h : c.isDigit = false) (n : Nat) : c ∉ decimal n := by
  intro hc
  rw [isDigit_of_mem_decimal hc] at h
  cases h

@[simp] theorem trim_decimal (n : Nat) : trim (decimal n) = decimal n :=
  trim_of_forall fun _ hc => isBlank_of_isDigit (isDigit_of_mem_decimal hc)

/-! ### Labels -/

/-- A label is a word that starts and ends with other characters than blanks. -/
structure IsLabel (label : List Char) : Prop where
  noSpace : ' ' ∉ label
  start : trimStart label = label
  nonempty : label ≠ []
  ending : trimEnd label = label

theorem trim_labelled {label rest : List Char} (hl : IsLabel label) (h : trim rest = rest) :
    trim (label ++ ' ' :: rest) = if rest = [] then label else label ++ ' ' :: rest := by
  have hstart : trimStart (label ++ ' ' :: rest) = label ++ ' ' :: rest := by
    cases hc : label with
    | nil => exact absurd hc hl.nonempty
    | cons c tail =>
      apply trimStart_eq_self
      cases hb : isBlank c with
      | false => rfl
      | true =>
        have hs := congrArg List.length hl.start
        rw [trimStart, hc, List.dropWhile_cons_of_pos hb, List.length_cons] at hs
        have hle := (List.dropWhile_sublist isBlank (l := tail)).length_le
        omega
  rw [trim, hstart, trimEnd_append, ← List.singleton_append, trimEnd_append, trimEnd_of_trim h]
  by_cases hr : rest = []
  · rw [if_pos hr, if_pos hr, if_pos (by decide), hl.ending]
  · simp [hr]

/-- What stands after a label comes back, also where the line ends in a blank. -/
theorem afterLabel_trim {label rest : List Char} (hl : IsLabel label) (h : trim rest = rest) :
    afterLabel (trim (label ++ ' ' :: rest)) = rest := by
  rw [trim_labelled hl h]
  by_cases hr : rest = []
  · rw [if_pos hr, afterLabel, cut_of_not_mem hl.noSpace, hr]
  · rw [if_neg hr, afterLabel, cut_append rest hl.noSpace]
    exact h

theorem isPrefixOf_trim {label rest : List Char} (hl : IsLabel label) (h : trim rest = rest) :
    label.isPrefixOf (trim (label ++ ' ' :: rest)) = true := by
  rw [trim_labelled hl h, List.isPrefixOf_iff_prefix]
  split
  · exact List.prefix_refl _
  · exact List.prefix_append _ _

/-! ### Delimiters -/

theorem cut_fst (d : Char) (s : List Char) : (cut d s).1 = s.takeWhile (· != d) := by
  unfold cut
  split
  · rename_i h
    have happend := List.takeWhile_append_dropWhile (p := (· != d)) (l := s)
    rw [h, List.append_nil] at happend
    exact happend.symm
  · rfl

theorem mem_intercalate {c d : Char} {words : List (List Char)}
    (h : c ∈ [d].intercalate words) : c = d ∨ ∃ w ∈ words, c ∈ w := by
  induction words with
  | nil => simp [List.intercalate] at h
  | cons w words ih =>
    cases words with
    | nil => exact .inr ⟨w, List.mem_singleton_self w, by simpa [List.intercalate] using h⟩
    | cons v vs =>
      rw [List.intercalate_cons_cons, List.append_assoc, List.mem_append, List.mem_append,
        List.mem_singleton] at h
      rcases h with h | h | h
      · exact .inr ⟨w, List.mem_cons_self, h⟩
      · exact .inl h
      · exact (ih h).imp_right fun ⟨x, hx, hc⟩ => ⟨x, List.mem_cons_of_mem _ hx, hc⟩

theorem tokens_intercalate {d : Char} {words : List (List Char)} (hd : ∀ w ∈ words, d ∉ w)
    (hne : ∀ w ∈ words, w ≠ []) : tokens d ([d].intercalate words) = words := by
  unfold tokens
  by_cases h : words = []
  · simp [h, List.intercalate, List.splitOn_nil]
  · rw [List.splitOn_intercalate d hd h, List.filter_eq_self]
    intro w hw
    simpa using hne w hw

/-- Cutting at as many delimiters as there are columns leaves the rest in one piece. -/
theorem splitFirst_intercalate {d : Char} {columns : List (List Char)} (rest : List Char)
    (hd : ∀ w ∈ columns, d ∉ w) :
    splitFirst d columns.length ([d].intercalate (columns ++ [rest])) = columns ++ [rest] := by
  induction columns with
  | nil => simp [splitFirst, List.intercalate]
  | cons w columns ih =>
    have hw := hd w List.mem_cons_self
    have htail := ih fun v hv => hd v (List.mem_cons_of_mem _ hv)
    have hcut : [d].intercalate (w :: columns ++ [rest]) =
        w ++ d :: [d].intercalate (columns ++ [rest]) := by
      obtain ⟨v, vs, hv⟩ := List.exists_cons_of_ne_nil (l := columns ++ [rest]) (by simp)
      rw [List.cons_append, hv, List.intercalate_cons_cons]
      simp
    rw [hcut, List.length_cons, splitFirst, cut_append _ hw]
    exact congrArg (List.cons w) htail

end Schemata.Text
