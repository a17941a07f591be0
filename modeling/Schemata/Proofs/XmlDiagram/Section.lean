import Schemata.Proofs.Format.Reachability
import Schemata.Proofs.Model.Layout
import Schemata.Proofs.XmlDiagram.Tables

/-!
# The table section of a document

The table section is accepted exactly by its rules. It decides which tables and columns there are,
and no relation that follows it changes them.
-/
namespace Schemata

/-- A field as it is without its reference. -/
def Field.unbound (a : Field) : Field := { a with foreign := none }

namespace XmlDiagram
open Xml
variable {s s' : Schema} {elements : List Node} {element root : Node}

/-- The tables stand in the order of the table elements, and the columns of each in the order of its
field elements. What refers from one to another is left open. -/
structure Lists (elements : List Node) (s : Schema) : Prop where
  tableNames : s.tables.map (·.name) = elements.map tableName
  columns : ∀ (i : Nat) element, elements[i]? = some element → ∃ t, s.table? ⟨i⟩ = some t ∧
    t.columns.map (fun f => (s.field? f).map Field.unbound) =
      (fieldElements element).map fun e => some (describedField ⟨i⟩ e)
  fieldCount : s.fields.length = (elements.flatMap fieldElements).length

/-- Nothing refers to anything. -/
structure Unlinked (s : Schema) : Prop where
  tables : ∀ t ∈ s.tables, t.related = [] ∧ t.bindings = ∅ ∧ t.indexes = ∅
  fields : ∀ a ∈ s.fields, a.foreign = none

/-! ### Sections -/

theorem Lists.tableCount (h : Lists elements s) : s.tables.length = elements.length := by
  have hl := congrArg List.length h.tableNames
  rwa [List.length_map, List.length_map] at hl

theorem Lists.push (h : Lists elements s) (element : Node) : Lists (elements ++ [element])
    (withElements s (tableName element) (fieldElements element)) where
  tableNames := by simp [withElements, h.tableNames]
  columns i e he := by
    rw [table?_withElements]
    rw [Schema.getElem?_push, ← h.tableCount] at he
    by_cases hi : i = s.tables.length
    · rw [if_pos hi] at he
      cases he
      refine ⟨_, if_pos hi, ?_⟩
      have hcolumns := congrArg (List.map (Option.map Field.unbound))
        (map_field?_withElements s (tableName element) (fieldElements element))
      rw [hi]
      simpa [Function.comp_def, describedField, Field.unbound] using hcolumns
    · rw [if_neg hi] at he
      obtain ⟨t, ht, hcolumns⟩ := h.columns i e he
      refine ⟨t, (if_neg hi).trans ht, ?_⟩
      rw [← hcolumns]
      apply List.map_congr_left
      intro f hf
      -- the columns of earlier tables are fields that were there
      have hmem := List.mem_map_of_mem (f := fun f => (s.field? f).map Field.unbound) hf
      rw [hcolumns] at hmem
      obtain ⟨e', -, he'⟩ := List.mem_map.1 hmem
      obtain ⟨a, ha, -⟩ := Option.map_eq_some_iff.1 he'.symm
      have hold : (withElements s (tableName element) (fieldElements element)).field? f =
          s.field? f := List.getElem?_append_left (Schema.lt_of_field? ha)
      rw [hold]
  fieldCount := by simp [withElements, h.fieldCount]

theorem Unlinked.push (h : Unlinked s) (name : String) (fields : List Node) :
    Unlinked (withElements s name fields) where
  tables t ht := by
    rcases List.mem_append.1 ht with ht | ht
    · exact h.tables t ht
    · rw [List.mem_singleton.1 ht]
      exact ⟨rfl, rfl, rfl⟩
  fields a ha := by
    rcases List.mem_append.1 ha with ha | ha
    · exact h.fields a ha
    · obtain ⟨e, -, rfl⟩ := List.mem_map.1 ha
      rfl

/-- The root and the table section. -/
def readSection (root : Node) : Except ParseError Schema :=
  if root.isNamed "diagram" then readTables root else .error (.badStructure .wrongRoot)

/-- What follows the table section. -/
def readRelations (root : Node) (s : Schema) : Except ParseError Schema := do
  let part ← onlyChild root "relationships" (.notOneSection "relationships")
  (part.childrenNamed "relation").foldlM addRelation s

theorem readRoot_eq (root : Node) : readRoot root = readSection root >>= readRelations root := by
  unfold readRoot readSection
  split <;> rfl

theorem reachable_readSection (h : readSection root = .ok s) : s.Reachable := by
  unfold readSection at h
  split at h
  · exact reachable_readTables h
  · cases h

theorem judged_readSection (root : Node) : Judged (rootFaults root)
    (fun s => Lists (tableElements root) s ∧ Unlinked s) (readSection root) := by
  unfold readSection readTables
  rw [← ite_not]
  apply Judged.ite_error Iff.rfl
  intro _
  apply (judged_onlyChild root "tables" _).bind
  intro part hpart
  have htables : part.childrenNamed "table" = tableElements root := by
    simp [tableElements, hpart]
  dsimp only
  rw [htables]
  apply Judged.ite_error (by simp)
  intro _
  apply Judged.foldlM (P := fun done s => Lists done s ∧ Unlinked s)
  · exact ⟨⟨rfl, by simp, rfl⟩, by simp, by simp⟩
  · intro done element _ s hs
    apply (judged_addTable hs.1.tableNames).mono
    rintro _ rfl
    exact ⟨hs.1.push element, hs.2.push _ _⟩

/-! ### Relations -/

theorem Lists.modifyTable (h : Lists elements s) (id : TableId) {f : Table → Table}
    (hname : ∀ t, (f t).name = t.name) (hcolumns : ∀ t, (f t).columns = t.columns) :
    Lists elements (s.modifyTable id f) where
  tableNames := (map_modify_eq hname s.tables id.index).trans h.tableNames
  columns i e he := by
    obtain ⟨t, ht, hc⟩ := h.columns i e he
    rw [Schema.table?_modifyTable, Schema.field?_modifyTable]
    by_cases hi : ⟨i⟩ = id
    · refine ⟨f t, ?_, (hcolumns t).symm ▸ hc⟩
      rw [if_pos hi, ← hi, ht, Option.map_some]
    · exact ⟨t, (if_neg hi).trans ht, hc⟩
  fieldCount := h.fieldCount

theorem Lists.modifyField (h : Lists elements s) (id : FieldId) {f : Field → Field}
    (hf : ∀ a, (f a).unbound = a.unbound) : Lists elements (s.modifyField id f) where
  tableNames := h.tableNames
  columns i e he := by
    obtain ⟨t, ht, hc⟩ := h.columns i e he
    refine ⟨t, ht, ?_⟩
    rw [← hc]
    apply List.map_congr_left
    intro g _
    rw [Schema.field?_modifyField]
    by_cases hg : g = id
    · rw [if_pos hg, hg, Option.map_map]
      exact congrArg (fun u => (s.field? id).map u) (funext hf)
    · rw [if_neg hg]
  fieldCount := (List.length_modify ..).trans h.fieldCount

theorem Lists.addRelation (h : Lists elements s) (hs : addRelation s element = .ok s') :
    Lists elements s' := by
  obtain ⟨table, related, native, foreign, c, c', hc, hc', rfl⟩ := changes_of_addRelation hs
  obtain ⟨t, -, -, rfl⟩ := Schema.addRelated_eq_ok_iff.1 hc
  obtain ⟨f, -, -, -, -, -, -, rfl⟩ := Schema.bind_eq_ok_iff.1 hc'
  apply Lists.modifyField
  · apply Lists.modifyTable
    · split
      · exact h
      · exact h.modifyTable table (fun _ => rfl) fun _ => rfl
    · exact fun _ => rfl
    · exact fun _ => rfl
  · exact fun _ => rfl

theorem Lists.readRelations (h : Lists elements s) (hs : readRelations root s = .ok s') :
    Lists elements s' := by
  obtain ⟨part, -, hs⟩ := bind_eq_ok.1 hs
  exact foldlM_invariant (fun _ _ _ h hs => h.addRelation hs) h hs

/-! ### Documents -/

/-- The first broken rule of the first element that breaks one. -/
inductive FirstFault (root : Node) : ParseError → Prop
  | wrongRoot (hroot : root.isNamed "diagram" = false) :
    FirstFault root (.badStructure .wrongRoot)
  | notOneSection (hroot : root.isNamed "diagram" = true)
      (hone : (root.childrenNamed "tables").length ≠ 1) :
    FirstFault root (.badStructure (.notOneSection "tables"))
  | noTables (hroot : root.isNamed "diagram" = true)
      (hone : (root.childrenNamed "tables").length = 1) (hnone : tableElements root = []) :
    FirstFault root (.badStructure .noTables)
  | inTable {before after : List Node} {element : Node} {e : ParseError}
      (hroot : root.isNamed "diagram" = true) (hone : (root.childrenNamed "tables").length = 1)
      (htables : tableElements root = before ++ element :: after)
      (hbefore : ∀ done e rest, before = done ++ e :: rest → LawfulTable done e)
      (hfault : (tableFaults before element).head? = some e) : FirstFault root e

theorem firstFault_of_head? {e : ParseError} (h : (rootFaults root).head? = some e) :
    FirstFault root e := by
  unfold rootFaults at h
  cases hroot : root.isNamed "diagram" with
  | false =>
    simp only [hroot, faultIf, ne_eq, Bool.false_eq_true, not_false_eq_true, if_true,
      List.singleton_append, List.head?_cons, Option.some.injEq] at h
    exact h ▸ .wrongRoot hroot
  | true =>
    rw [hroot, faultIf, if_neg (by simp), List.nil_append] at h
    by_cases hone : (root.childrenNamed "tables").length = 1
    · rw [faultIf, if_neg (by simpa using hone), List.nil_append] at h
      by_cases hnone : tableElements root = []
      · rw [faultIf, if_pos hnone] at h
        cases h
        exact .noTables hroot hone hnone
      · rw [faultIf, if_neg hnone, List.nil_append] at h
        obtain ⟨before, element, after, htables, hbefore, hfault⟩ := head?_faultsAlong h
        simp only [faultsAlong_eq_nil, List.nil_append, tableFaults_eq_nil] at hbefore
        exact .inTable hroot hone htables hbefore hfault
    · rw [faultIf, if_pos hone] at h
      cases h
      exact .notOneSection hroot hone

/-- The table section is accepted exactly if it keeps the rules. The tables and columns of the
schema are those that its elements describe, and a section that breaks a rule is the reason why the
document is refused. -/
theorem readSchema_section (root : Node) :
    ((∃ s, readSection root = .ok s) ↔ LawfulRoot root) ∧
      (∀ s, readSection root = .ok s → Lists (tableElements root) s ∧ Unlinked s) ∧
      ∀ (document : DocumentReader) text, document text = .ok root →
        readSchema document text = readSection root >>= readRelations root ∧
        (∀ s, readSchema document text = .ok s → Lists (tableElements root) s) ∧
        (¬LawfulRoot root → ∃ e, readSchema document text = .error e ∧ FirstFault root e) := by
  have hjudged := judged_readSection root
  refine ⟨hjudged.exists_ok_iff.trans rootFaults_eq_nil, fun s hs => hjudged.of_eq_ok hs, ?_⟩
  intro document text htext
  have hread : readSchema document text = readSection root >>= readRelations root := by
    rw [readSchema, htext, ← readRoot_eq]
    rfl
  refine ⟨hread, ?_, ?_⟩
  · intro s hs
    obtain ⟨s₁, hsection, hs⟩ := bind_eq_ok.1 (hread ▸ hs)
    exact (hjudged.of_eq_ok hsection).1.readRelations hs
  · intro hlaw
    cases hfaults : rootFaults root with
    | nil => exact absurd (rootFaults_eq_nil.1 hfaults) hlaw
    | cons e faults =>
      have hhead : (rootFaults root).head? = some e := by rw [hfaults, List.head?_cons]
      refine ⟨e, ?_, firstFault_of_head? hhead⟩
      rw [hread, hjudged.error_iff.2 hhead]
      rfl

end XmlDiagram
end Schemata
