import Schemata.Proofs.Format.LineReader
import Schemata.Proofs.Text
import Schemata.SaveFile.Printer
import Schemata.SaveFile.Reader
import Mathlib.Data.List.Basic

/-!
# Written blocks read back

A block reads back if its numbers fit and its name stays as it is on a line of its own. Every line
of a block is trimmed before it is read, so a row without numbers loses its last blank.
-/
namespace Schemata.SaveFile
open Text LineReader

/-! ### Lines -/

/-- Free of line breaks. -/
def IsLine (line : Line) : Prop := '\n' ∉ line ∧ '\r' ∉ line

instance (line : Line) : Decidable (IsLine line) :=
  inferInstanceAs (Decidable ('\n' ∉ line ∧ '\r' ∉ line))

theorem IsLine.append {l l' : Line} (h : IsLine l) (h' : IsLine l') : IsLine (l ++ l') := by
  constructor
  · simp [h.1, h'.1]
  · simp [h.2, h'.2]

theorem lines_unlines {ls : List Line} (h : ∀ l ∈ ls, IsLine l) : lines (unlines ls) = ls := by
  rw [unlines, lines_flatMap fun l hl => (h l hl).1]
  exact (List.map_congr_left fun l hl => reverse_dropReturn (h l hl).2).trans ls.map_id

theorem isLine_decimal (n : Nat) : IsLine (decimal n) :=
  ⟨not_mem_decimal (by decide) n, not_mem_decimal (by decide) n⟩

theorem isLine_intercalate {words : List Line} (h : ∀ w ∈ words, IsLine w) :
    IsLine ([delimiter].intercalate words) := by
  constructor <;> intro hc <;> rcases mem_intercalate hc with hd | ⟨w, hw, hc⟩
  · cases hd
  · exact (h w hw).1 hc
  · cases hd
  · exact (h w hw).2 hc

theorem isLine_joinIds (ids : List Nat) : IsLine (joinIds ids) := by
  apply isLine_intercalate
  intro w hw
  obtain ⟨n, -, rfl⟩ := List.mem_map.1 hw
  exact isLine_decimal n

/-! ### Numbers in rows of a block -/

theorem trim_joinIds (ids : List Nat) : trim (joinIds ids) = joinIds ids := by
  apply trim_of_forall
  intro c hc
  rcases mem_intercalate hc with hd | ⟨w, hw, hc⟩
  · rw [hd]
    rfl
  · obtain ⟨n, -, rfl⟩ := List.mem_map.1 hw
    exact isBlank_of_isDigit (isDigit_of_mem_decimal hc)

theorem tokens_joinIds (ids : List Nat) : tokens delimiter (joinIds ids) = ids.map decimal := by
  apply tokens_intercalate
  · intro w hw
    obtain ⟨n, -, rfl⟩ := List.mem_map.1 hw
    exact not_mem_decimal (by decide) n
  · intro w hw
    obtain ⟨n, -, rfl⟩ := List.mem_map.1 hw
    exact decimal_ne_nil n

theorem readIds_written {word : String} {label : Line} (hl : IsLabel label)
    (hword : word.toList <+: label) {ids : List Nat} (hids : ∀ n ∈ ids, n < wordLimit)
    (number : Nat) (rest : List Line) :
    readIds word ⟨number, (label ++ ' ' :: joinIds ids) :: rest⟩ =
      .ok ids ⟨number + 1, rest⟩ := by
  have hread : ∀ n ∈ ids, readWord? (trim (decimal n)) = some n := by
    intro n hn
    rw [trim_decimal, readWord?_decimal (hids n hn)]
  have hprefix : startsWith word (trim (label ++ ' ' :: joinIds ids)) = true := by
    have hp := List.isPrefixOf_iff_prefix.1 (isPrefixOf_trim hl (trim_joinIds ids))
    exact List.isPrefixOf_iff_prefix.2 (hword.trans hp)
  have hnone : ((ids.map decimal).find? fun t => (readWord? (trim t)).isNone) = none := by
    rw [List.find?_eq_none]
    intro w hw
    obtain ⟨n, hn, rfl⟩ := List.mem_map.1 hw
    rw [hread n hn]
    exact Bool.false_ne_true
  have hall : ((ids.map decimal).filterMap fun t => readWord? (trim t)) = ids := by
    rw [List.filterMap_map]
    exact (List.filterMap_congr hread).trans List.filterMap_some
  rw [readIds, bind_of_ok (next_cons ..), if_pos hprefix]
  simp only [afterLabel_trim hl (trim_joinIds ids), tokens_joinIds, hnone, hall]
  rfl

/-! ### Blocks -/

/-- What a block must be like so that its lines can be told apart again. -/
structure WritableBlock (b : Block) : Prop where
  id : b.id < wordLimit
  nonempty : b.name.toList ≠ []
  trimmed : trim b.name.toList = b.name.toList
  isLine : IsLine b.name.toList
  native : ∀ n ∈ b.native, n < wordLimit
  related : ∀ n ∈ b.related, n < wordLimit
  relatedFields : ∀ n ∈ b.relatedFields, n < wordLimit
  even : b.relatedFields.length = b.native.length

/-- The lines of a block as labels with what stands after them. -/
theorem blockLines_eq (b : Block) : blockLines b =
    ["Table:".toList ++ ' ' :: decimal b.id,
      ['{'],
      "TableName:".toList ++ ' ' :: b.name.toList,
      "NativeFields:".toList ++ ' ' :: joinIds b.native,
      "RelatedTables:".toList ++ ' ' :: joinIds b.related,
      "RelatedFields:".toList ++ ' ' :: joinIds b.relatedFields,
      ['}']] := by
  simp [blockLines]

theorem isLine_blockLines {b : Block} (h : WritableBlock b) : ∀ l ∈ blockLines b, IsLine l := by
  have hlabel {label : Line} (hl : IsLine label) (ids : List Nat) : IsLine (label ++ joinIds ids) :=
    hl.append (isLine_joinIds ids)
  simp only [blockLines, List.forall_mem_cons]
  refine ⟨.append ?_ (isLine_decimal _), ?_, .append ?_ h.isLine, hlabel ?_ _, hlabel ?_ _,
    hlabel ?_ _, ?_, List.forall_mem_nil _⟩
  all_goals exact ⟨by decide, by decide⟩

theorem isLabel_table : IsLabel "Table:".toList := ⟨by decide, by decide, by decide, by decide⟩

theorem isLabel_tableName : IsLabel "TableName:".toList :=
  ⟨by decide, by decide, by decide, by decide⟩

theorem isLabel_native : IsLabel "NativeFields:".toList :=
  ⟨by decide, by decide, by decide, by decide⟩

theorem isLabel_related : IsLabel "RelatedTables:".toList :=
  ⟨by decide, by decide, by decide, by decide⟩

theorem isLabel_relatedFields : IsLabel "RelatedFields:".toList :=
  ⟨by decide, by decide, by decide, by decide⟩

theorem readBlockBody_written {b : Block} (h : WritableBlock b) (number : Nat)
    (rest : List Line) :
    readBlockBody b.id b.name ⟨number, (blockLines b).drop 3 ++ rest⟩ =
      .ok b ⟨number + 4, rest⟩ := by
  rw [blockLines_eq, readBlockBody]
  apply (bind_of_ok (readIds_written isLabel_native (by decide) h.native number _) _).trans
  apply (bind_of_ok (readIds_written isLabel_related (by decide) h.related (number + 1) _) _).trans
  apply (bind_of_ok (readIds_written isLabel_relatedFields (by decide) h.relatedFields
    (number + 2) _) _).trans
  rw [if_pos h.even]
  rfl

/-- A block whose header has been read. -/
theorem readBlock_written {b : Block} (h : WritableBlock b) (number : Nat) (rest : List Line) :
    readBlock (trim ("Table:".toList ++ ' ' :: decimal b.id))
      ⟨number, (blockLines b).drop 1 ++ rest⟩ = .ok b ⟨number + 6, rest⟩ := by
  have hid : labelledId (trim ("Table:".toList ++ ' ' :: decimal b.id)) = pure b.id := by
    rw [labelledId, afterLabel_trim isLabel_table (trim_decimal b.id), readWord?_decimal h.id]
  have hname : afterLabel (trim ("TableName:".toList ++ ' ' :: b.name.toList)) = b.name.toList :=
    afterLabel_trim isLabel_tableName h.trimmed
  have hbody := readBlockBody_written h (number + 2) rest
  rw [blockLines_eq] at hbody ⊢
  rw [readBlock, hid]
  apply (bind_of_ok rfl _).trans
  apply (bind_of_ok (next_cons .tableBlock number ['{'] _) _).trans
  rw [if_pos (by decide)]
  apply (bind_of_ok (next_cons .tableBlock (number + 1) _ _) _).trans
  simp only [hname]
  rw [if_neg h.nonempty, String.ofList_toList]
  exact hbody

theorem step_written {b : Block} (h : WritableBlock b) (blocks : List Block) (number : Nat)
    (rest : List Line) :
    step blocks (trim ("Table:".toList ++ ' ' :: decimal b.id))
      ⟨number, (blockLines b).drop 1 ++ rest⟩ = .ok (blocks ++ [b], true) ⟨number + 6, rest⟩ := by
  have hstart : startsWith "Table: " (trim ("Table:".toList ++ ' ' :: decimal b.id)) = true := by
    rw [trim_labelled isLabel_table (trim_decimal b.id), if_neg (decimal_ne_nil b.id)]
    exact List.isPrefixOf_iff_prefix.2 ⟨decimal b.id, by simp⟩
  rw [step, if_pos hstart]
  exact bind_of_ok (readBlock_written h number rest) _

/-- The loop over blocks stops after the line that begins the rows. -/
theorem eachLine_written {blocks : List Block} (h : ∀ b ∈ blocks, WritableBlock b)
    (gathered : List Block) (number : Nat) (rest : List Line) :
    eachLine step forward_step gathered
      ⟨number, blocks.flatMap blockLines ++ "#Fields#".toList :: rest⟩ =
      .ok (gathered ++ blocks) ⟨number + 7 * blocks.length + 1, rest⟩ := by
  induction blocks generalizing gathered number with
  | nil =>
    rw [List.flatMap_nil, List.nil_append, List.append_nil, eachLine_cons]
    rfl
  | cons b blocks ih =>
    have hb := step_written (h b List.mem_cons_self) gathered (number + 1)
      (blocks.flatMap blockLines ++ "#Fields#".toList :: rest)
    have htail := ih (fun c hc => h c (List.mem_cons_of_mem _ hc)) (gathered ++ [b]) (number + 7)
    rw [List.flatMap_cons, List.append_assoc]
    rw [blockLines_eq] at hb ⊢
    rw [List.cons_append, eachLine_cons]
    simp only [List.drop_succ_cons, List.drop_zero] at hb
    rw [hb]
    simp only
    rw [htail, List.append_assoc, List.length_cons]
    congr 2
    omega

end Schemata.SaveFile
