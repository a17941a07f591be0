import Schemata.Proofs.Lists
import Schemata.Proofs.Model.Steps
import Schemata.Proofs.XmlDiagram.Rules

/-!
# Reading the table section

The schema at hand is always that of the elements read so far: whole tables, and one that has the
columns of the field elements before the current one. So every check is a rule about elements.
-/
namespace Schemata.XmlDiagram
open Xml
variable {s : Schema} {done fields : List Node} {element root : Node} {name : String}

/-! ### Tables of elements -/

/-- With one more table, which has the columns that field elements describe. -/
def withElements (s : Schema) (name : String) (fields : List Node) : Schema where
  tables := s.tables ++
    [{ name, columns := (List.range' s.fields.length fields.length).map FieldId.mk }]
  fields := s.fields ++ fields.map (describedField ⟨s.tables.length⟩)

theorem withElements_nil : withElements s name [] = s.withTable name := by
  simp [withElements, Schema.withTable]

theorem table?_withElements (s : Schema) (name : String) (fields : List Node) (id : TableId) :
    (withElements s name fields).table? id =
    if id.index = s.tables.length then
      some { name, columns := (List.range' s.fields.length fields.length).map FieldId.mk }
    else s.table? id :=
  Schema.getElem?_push s.tables _ id.index

/-- The columns show what the field elements describe, in their order. -/
theorem map_field?_withElements (s : Schema) (name : String) (fields : List Node) :
    ((List.range' s.fields.length fields.length).map FieldId.mk).map
        (withElements s name fields).field? =
      fields.map fun e => some (describedField ⟨s.tables.length⟩ e) := by
  ext i : 1
  by_cases h : i < fields.length
  · simp [Schema.field?, withElements, h]
  · simp [h]

/-- With the column of one more field element. -/
theorem withField_withElements (settings : List Setting)
    (h : Field.setAll { name := textOf element, table := ⟨s.tables.length⟩ } settings =
      describedField ⟨s.tables.length⟩ element) :
    ((withElements s name done).withField ⟨s.tables.length⟩ (textOf element)).modifyField
        ⟨(withElements s name done).fields.length⟩ (·.setAll settings) =
      withElements s name (done ++ [element]) := by
  apply congrArg₂ Schema.mk
  · apply (modify_push s.tables _ _).trans
    simp [withElements, List.range'_1_concat]
  · apply (modify_push (withElements s name done).fields _ _).trans
    rw [h]
    simp [withElements]

/-! ### Fields -/

theorem judged_onlyChild (node : Node) (name : String) (fault : StructureFault) :
    Judged (faultIf ((node.childrenNamed name).length ≠ 1) (.badStructure fault))
      (fun child => node.childrenNamed name = [child]) (onlyChild node name fault) := by
  unfold onlyChild
  rcases h : node.childrenNamed name with _ | ⟨child, _ | ⟨child', rest⟩⟩
  · exact .refused _ []
  · exact .accepted rfl
  · exact .refused _ []

theorem judged_columnType (table : TableId) (element : Node) : Judged (typeFaults element)
    (fun type => Field.setAll { name := textOf element, table } (type.settings element) =
      describedField table element) (columnType element (textOf element)) := by
  unfold columnType
  split
  · rename_i h
    rw [typeFaults, if_pos h]
    dsimp only
    cases hn : Text.readWord? (valueOf element "size").toList with
    | none =>
      rw [faultIf, if_pos rfl]
      exact .refused _ []
    | some n =>
      rw [faultIf, if_neg (Option.some_ne_none n)]
      apply Judged.accepted
      by_cases hfixed : isSet element "fixed" = true <;>
        simp [Field.setAll, ColumnType.settings, Field.set, describedField, h, hn, hfixed]
  · rename_i h
    rw [typeFaults, if_neg (by simp [h]), faultIf, if_neg (by simp [h])]
    apply Judged.accepted
    simp [Field.setAll, ColumnType.settings, Field.set, describedField, h]
  · rename_i hstring hint
    rw [typeFaults, if_neg hstring, faultIf, if_pos hint]
    exact .refused _ []

/-- A name is taken, up to case, if an earlier field element has it. -/
theorem hasColumnLike_iff {t : Table} {table : TableId}
    (h : t.columns.map s.field? = done.map fun e => some (describedField table e)) :
    hasColumnLike s t name = true ↔
      ∃ e ∈ done, Text.lowerCase (textOf e) = Text.lowerCase name := by
  have hmap : hasColumnLike s t name = (t.columns.map s.field?).any fun a =>
      a.any fun f => Text.lowerCase f.name == Text.lowerCase name := by
    rw [List.any_map]
    rfl
  rw [hmap, h, List.any_map]
  simp [describedField]

theorem judged_addField : Judged (fieldFaults name done element)
    (· = withElements s name (done ++ [element]))
    (addField ⟨s.tables.length⟩ (withElements s name done) element) := by
  have ht := (table?_withElements s name done ⟨s.tables.length⟩).trans (if_pos rfl)
  have hcolumns := map_field?_withElements s name done
  simp only [addField, ht]
  apply Judged.ite_error (by simp)
  intro hname
  apply Judged.ite_error (hasColumnLike_iff hcolumns)
  intro hlike
  rw [← List.append_nil (typeFaults element)]
  apply (judged_columnType ⟨s.tables.length⟩ element).bind
  intro type htype
  have hfresh : ∀ g ∈ (List.range' s.fields.length done.length).map FieldId.mk, ∀ f,
      (withElements s name done).field? g = some f → f.name ≠ textOf element := by
    intro g hg f hf he
    have hmem := List.mem_map_of_mem (f := (withElements s name done).field?) hg
    rw [hcolumns, hf] at hmem
    obtain ⟨e, he', heq⟩ := List.mem_map.1 hmem
    cases heq
    exact hlike ⟨e, he', congrArg Text.lowerCase he⟩
  have hnew : ((withElements s name done).withField ⟨s.tables.length⟩ (textOf element)).field?
      ⟨(withElements s name done).fields.length⟩ =
        some { name := textOf element, table := ⟨s.tables.length⟩ } :=
    (Schema.field?_withField ..).trans (if_pos rfl)
  refine .of_exists ⟨_, ?_, rfl⟩
  simp only [bind_eq_ok, accepted_eq_ok, Schema.addField_eq_ok_iff, Schema.updateField_eq_ok_iff,
    pure_eq_ok]
  exact ⟨_, ⟨_, ht, hfresh, rfl⟩, _, ⟨_, hnew, rfl⟩, (withField_withElements _ htype).symm⟩

/-! ### Tables -/

theorem judged_addTable (hnames : s.tables.map (·.name) = done.map tableName) :
    Judged (tableFaults done element)
      (· = withElements s (tableName element) (fieldElements element)) (addTable s element) := by
  have hnamed : (s.tableNamed? (tableName element)).isSome = true ↔
      ∃ e ∈ done, tableName e = tableName element := by
    have hmem : tableName element ∈ s.tables.map (·.name) ↔
        ∃ e ∈ done, tableName e = tableName element := by
      rw [hnames, List.mem_map]
    rw [← hmem]
    simp [Schema.tableNamed?]
  unfold addTable
  apply (judged_onlyChild element "name" _).bind
  intro child hchild
  have hname : textOf child = tableName element := by simp [tableName, hchild]
  rw [hname]
  apply Judged.ite_error (by simp)
  intro _
  apply Judged.ite_error hnamed
  intro hfresh
  apply (judged_onlyChild element "fields" _).bind
  intro part hpart
  have hfields : part.childrenNamed "field" = fieldElements element := by
    simp [fieldElements, hpart]
  simp only [hfields]
  apply Judged.ite_error (by simp)
  intro _
  have hadd : accepted (s.addTable (tableName element)) =
      .ok ⟨withElements s (tableName element) [], ⟨s.tables.length⟩,
        some (.tableAdded ⟨s.tables.length⟩)⟩ := by
    rw [accepted_eq_ok, Schema.addTable_eq_ok_iff, withElements_nil]
    refine ⟨fun t ht he => hfresh ?_, rfl⟩
    rw [← List.mem_map, ← hnames, ← he]
    exact List.mem_map_of_mem ht
  rw [hadd]
  exact Judged.foldlM (P := fun done s' => s' = withElements s (tableName element) done) rfl
    fun done e _ s' hs' => hs' ▸ judged_addField

end Schemata.XmlDiagram
