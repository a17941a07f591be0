import Schemata.Proofs.Model.Relating
import Schemata.Proofs.XmlDiagram.Section

/-!
# The rules of relations

A relation is held against the table elements of its document. Everything it names must be there;
only then does it count that one of its ends must not be many.
-/
namespace Schemata.XmlDiagram
open Xml
variable {s : Schema} {tables : List Node} {element node : Node} {name table : String}

/-! ### What the elements say -/

def relationElements (root : Node) : List Node :=
  (root.childrenNamed "relationships").flatMap (·.childrenNamed "relation")

/-- The first child with a name; an empty text if there is none. -/
def firstChild (node : Node) (name : String) : Node :=
  (node.childrenNamed name).head?.getD (.text "")

def relationName (element : Node) : String := textOf (firstChild element "name")

def parentEnd (element : Node) : Node := firstChild element "parent"

def childEnd (element : Node) : Node := firstChild element "child"

/-- The table at an end of a relation. -/
def endTable (node : Node) : String := textOf (firstChild node "tablename")

def isMany (node : Node) : Bool := valueOf node "cardinality" == "many"

def keyElement (element : Node) : Node := firstChild (childEnd element) "foreignkey"

/-- The field of the child table that a relation names as foreign key. -/
def nativeName (element : Node) : String := textOf (keyElement element)

/-- The field of the parent table that the foreign key references. -/
def foreignName (element : Node) : String := valueOf (keyElement element) "references"

def HasTable (tables : List Node) (name : String) : Prop := ∃ t ∈ tables, tableName t = name

def HasField (tables : List Node) (table name : String) : Prop :=
  ∃ t ∈ tables, tableName t = table ∧ ∃ e ∈ fieldElements t, textOf e = name

instance (tables : List Node) (name : String) : Decidable (HasTable tables name) :=
  inferInstanceAs (Decidable (∃ t ∈ tables, tableName t = name))

instance (tables : List Node) (table name : String) : Decidable (HasField tables table name) :=
  inferInstanceAs (Decidable (∃ t ∈ tables, tableName t = table ∧
    ∃ e ∈ fieldElements t, textOf e = name))

/-! ### The rules -/

/-- A relation element that has all its parts and names only what is there. -/
structure CompleteRelation (tables : List Node) (element : Node) : Prop where
  oneName : (element.childrenNamed "name").length = 1
  oneParent : (element.childrenNamed "parent").length = 1
  oneParentTable : ((parentEnd element).childrenNamed "tablename").length = 1
  parent : HasTable tables (endTable (parentEnd element))
  oneChild : (element.childrenNamed "child").length = 1
  oneChildTable : ((childEnd element).childrenNamed "tablename").length = 1
  child : HasTable tables (endTable (childEnd element))
  oneKey : ((childEnd element).childrenNamed "foreignkey").length = 1
  native : HasField tables (endTable (childEnd element)) (nativeName element)
  foreign : HasField tables (endTable (parentEnd element)) (foreignName element)

structure LawfulRelation (tables : List Node) (element : Node) : Prop
    extends CompleteRelation tables element where
  notBothMany : ¬(isMany (parentEnd element) ∧ isMany (childEnd element))

/-! ### Faults -/

/-- The faults of an end of a relation, given which end it is. -/
def endFaults (tables : List Node) (relation owner : String) (node : Node) : List ParseError :=
  faultIf ((node.childrenNamed "tablename").length ≠ 1)
      (.badStructure (.notOneChild owner "tablename")) ++
    faultIf (¬HasTable tables (endTable node)) (.nonexistentTable relation (endTable node))

/-- What a relation element lacks or names in vain. -/
def gaps (tables : List Node) (element : Node) : List ParseError :=
  faultIf ((element.childrenNamed "name").length ≠ 1)
      (.badStructure (.notOneChild "relation" "name")) ++
    (faultIf ((element.childrenNamed "parent").length ≠ 1)
        (.badStructure (.notOneChild "relation" "parent")) ++
      (endFaults tables (relationName element) "parent" (parentEnd element) ++
        (faultIf ((element.childrenNamed "child").length ≠ 1)
            (.badStructure (.notOneChild "relation" "child")) ++
          (endFaults tables (relationName element) "child" (childEnd element) ++
            (faultIf (((childEnd element).childrenNamed "foreignkey").length ≠ 1)
                (.badStructure (.notOneChild "child" "foreignkey")) ++
              (faultIf (¬HasField tables (endTable (childEnd element)) (nativeName element))
                  (.nonexistentField (relationName element) (endTable (childEnd element))
                    (nativeName element)) ++
                faultIf (¬HasField tables (endTable (parentEnd element)) (foreignName element))
                  (.nonexistentField (relationName element) (endTable (parentEnd element))
                    (foreignName element))))))))

def relationFaults (tables : List Node) (element : Node) : List ParseError :=
  gaps tables element ++
    faultIf (isMany (parentEnd element) ∧ isMany (childEnd element)) .manyToManyRelation

theorem gaps_eq_nil : gaps tables element = [] ↔ CompleteRelation tables element := by
  simp only [gaps, endFaults, List.append_eq_nil_iff, faultIf_eq_nil, not_not]
  constructor
  · rintro ⟨hname, hparent, ⟨hpt, hp⟩, hchild, ⟨hct, hc⟩, hkey, hnative, hforeign⟩
    exact ⟨hname, hparent, hpt, hp, hchild, hct, hc, hkey, hnative, hforeign⟩
  · intro h
    exact ⟨h.oneName, h.oneParent, ⟨h.oneParentTable, h.parent⟩, h.oneChild,
      ⟨h.oneChildTable, h.child⟩, h.oneKey, h.native, h.foreign⟩

theorem relationFaults_eq_nil : relationFaults tables element = [] ↔
    LawfulRelation tables element := by
  rw [relationFaults, List.append_eq_nil_iff, gaps_eq_nil, faultIf_eq_nil]
  exact ⟨fun ⟨hcomplete, hmany⟩ => ⟨hcomplete, hmany⟩,
    fun h => ⟨h.toCompleteRelation, h.notBothMany⟩⟩

/-! ### Look-ups -/

/-- The place of a table, given its name. -/
def tablePlace (tables : List Node) (name : String) : TableId :=
  ⟨(tables.map tableName).idxOf name⟩

theorem Lists.tableNamed?_eq (h : Lists tables s) (name : String) :
    s.tableNamed? name = if HasTable tables name then some (tablePlace tables name) else none := by
  have hfind : s.tables.findIdx? (·.name == name) =
      (tables.map tableName).findIdx? (· == name) := by
    rw [← h.tableNames, List.findIdx?_map]
    rfl
  rw [Schema.tableNamed?, hfind]
  by_cases hname : HasTable tables name
  · rw [if_pos hname, List.findIdx?_eq_some_of_exists]
    · rfl
    · obtain ⟨t, ht, he⟩ := hname
      exact ⟨tableName t, List.mem_map_of_mem ht, beq_iff_eq.2 he⟩
  · rw [if_neg hname, List.findIdx?_eq_none_iff.2]
    · rfl
    · intro n hn
      obtain ⟨t, ht, rfl⟩ := List.mem_map.1 hn
      exact beq_eq_false_iff_ne.2 fun he => hname ⟨t, ht, he⟩

theorem Lists.exists_table (h : Lists tables s) (hl : s.Layout) (helement : element ∈ tables) :
    ∃ t, s.table? (tablePlace tables (tableName element)) = some t ∧ t.name = tableName element ∧
      t.columns.map (fun f => (s.field? f).map Field.unbound) =
        (fieldElements element).map fun e =>
          some (describedField (tablePlace tables (tableName element)) e) := by
  have hplace := getElem?_idxOf_key (h.tableNames ▸ hl.names) helement
  obtain ⟨t, ht, hcolumns⟩ := h.columns _ element hplace
  refine ⟨t, ht, ?_, hcolumns⟩
  have hname := congrArg (·[(tables.map tableName).idxOf (tableName element)]?) h.tableNames
  simpa [hplace, show s.tables[(tables.map tableName).idxOf (tableName element)]? = some t from ht]
    using hname

/-- The fields of a table are those that its element describes. -/
theorem Lists.hasField_iff (h : Lists tables s) (hl : s.Layout) (htable : HasTable tables table)
    (name : String) :
    HasField tables table name ↔ ∃ f a, s.field? f = some a ∧
      a.table = tablePlace tables table ∧ a.name = name := by
  obtain ⟨element, helement, rfl⟩ := htable
  obtain ⟨t, ht, -, hcolumns⟩ := h.exists_table hl helement
  constructor
  · rintro ⟨element', helement', hname, e, he, rfl⟩
    obtain rfl := eq_of_key_eq (h.tableNames ▸ hl.names) helement' helement hname
    have hmem : some (describedField (tablePlace tables (tableName element')) e) ∈
        t.columns.map fun f => (s.field? f).map Field.unbound := by
      rw [hcolumns]
      exact List.mem_map_of_mem he
    obtain ⟨f, hf, hfield⟩ := List.mem_map.1 hmem
    obtain ⟨a, ha, hunbound⟩ := Option.map_eq_some_iff.1 hfield
    exact ⟨f, a, ha, congrArg Field.table hunbound, congrArg Field.name hunbound⟩
  · rintro ⟨f, a, ha, htable, rfl⟩
    have hmem := List.mem_map_of_mem (f := fun f => (s.field? f).map Field.unbound)
      ((hl.mem_columns ht f).2 ⟨a, ha, htable⟩)
    rw [hcolumns, ha] at hmem
    obtain ⟨e, he, hfield⟩ := List.mem_map.1 hmem
    exact ⟨element, helement, rfl, e, he, congrArg Field.name (Option.some.inj hfield)⟩

/-! ### Steps -/

theorem judged_firstChild (node : Node) (name : String) (fault : StructureFault) :
    Judged (faultIf ((node.childrenNamed name).length ≠ 1) (.badStructure fault))
      (· = firstChild node name) (onlyChild node name fault) := by
  apply (judged_onlyChild node name fault).mono
  intro child hchild
  rw [firstChild, hchild]
  rfl

theorem judged_relationEnd (h : Lists tables s) (relation owner : String) (node : Node) :
    Judged (endFaults tables relation owner node)
      (fun e => HasTable tables (endTable node) ∧
        e = ⟨isMany node, endTable node, tablePlace tables (endTable node)⟩)
      (relationEnd s relation owner node) := by
  apply (judged_firstChild node "tablename" _).bind
  rintro _ rfl
  have hname : textOf (firstChild node "tablename") = endTable node := rfl
  simp only [hname, h.tableNamed?_eq]
  by_cases htable : HasTable tables (endTable node)
  · rw [if_pos htable, faultIf, if_neg (not_not.2 htable)]
    exact .accepted ⟨htable, rfl⟩
  · rw [if_neg htable, faultIf, if_pos htable]
    exact .refused _ []

theorem judged_relationField (h : Lists tables s) (hl : s.Layout) (relation : String)
    {many : Bool} (htable : HasTable tables table) (name : String) :
    Judged (faultIf (¬HasField tables table name) (.nonexistentField relation table name))
      (fun f => ∃ a, s.field? f = some a ∧ a.table = tablePlace tables table ∧ a.name = name)
      (relationField s relation ⟨many, table, tablePlace tables table⟩ name) := by
  have hfield := h.hasField_iff hl htable name
  unfold relationField
  cases hname : s.fieldNamed? (tablePlace tables table) name with
  | some f =>
    have hf := hl.fieldNamed?_eq_some_iff.1 hname
    rw [faultIf, if_neg (not_not.2 (hfield.2 ⟨f, hf⟩))]
    exact .accepted hf
  | none =>
    rw [faultIf, if_pos]
    · exact .refused _ []
    · intro hhas
      obtain ⟨f, hf⟩ := hfield.1 hhas
      cases hname.symm.trans (hl.fieldNamed?_eq_some_iff.2 hf)

/-- The fields that a relation element names. -/
structure Names (tables : List Node) (s : Schema) (element : Node) (native foreign : FieldId) :
    Prop where
  native : ∃ a, s.field? native = some a ∧
    a.table = tablePlace tables (endTable (childEnd element)) ∧ a.name = nativeName element
  foreign : ∃ a, s.field? foreign = some a ∧
    a.table = tablePlace tables (endTable (parentEnd element)) ∧ a.name = foreignName element

/-- With what a relation element says about two fields. -/
def withRelation (tables : List Node) (s : Schema) (element : Node) (native foreign : FieldId) :
    Schema :=
  (s.withRelated (tablePlace tables (endTable (childEnd element)))
    [tablePlace tables (endTable (parentEnd element))]).withBinding
      (tablePlace tables (endTable (childEnd element))) native foreign

/-- A lawful relation relates its tables and binds its fields. -/
theorem judged_addRelation (h : Lists tables s) (hl : s.Layout) (element : Node) :
    Judged (relationFaults tables element)
      (fun s' => ∃ native foreign, Names tables s element native foreign ∧
        s' = withRelation tables s element native foreign)
      (addRelation s element) := by
  simp only [relationFaults, gaps, List.append_assoc]
  apply (judged_firstChild element "name" _).bind
  rintro _ rfl
  apply (judged_firstChild element "parent" _).bind
  rintro _ rfl
  apply (judged_relationEnd h _ "parent" (parentEnd element)).bind
  rintro _ ⟨hparent, rfl⟩
  apply (judged_firstChild element "child" _).bind
  rintro _ rfl
  apply (judged_relationEnd h _ "child" (childEnd element)).bind
  rintro _ ⟨hchild, rfl⟩
  apply (judged_firstChild (childEnd element) "foreignkey" _).bind
  rintro _ rfl
  apply (judged_relationField h hl _ hchild (nativeName element)).bind
  rintro native ⟨a, ha, hat, han⟩
  apply (judged_relationField h hl _ hparent (foreignName element)).bind
  rintro foreign ⟨b, hb, hbt, hbn⟩
  rw [← List.append_nil (faultIf _ _)]
  apply Judged.ite_error (by simp)
  intro _
  obtain ⟨c, hc, hrelated⟩ := Schema.addRelated_eq (hl.hasTable ha) (hl.hasTable hb)
  obtain ⟨c', hc', hbound⟩ := Schema.bind_eq ha hb (hl.hasTable ha)
  rw [hat, hbt] at hc hrelated hc' hbound
  rw [← hrelated] at hc'
  apply Judged.of_exists
  simp only [bind_eq_ok, accepted_eq_ok, pure_eq_ok]
  exact ⟨_, ⟨c, hc, c', hc', rfl⟩, native, foreign, ⟨⟨a, ha, hat, han⟩, b, hb, hbt, hbn⟩, hbound⟩

end Schemata.XmlDiagram
