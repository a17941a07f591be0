import Schemata.Proofs.Ddl.Legible
import Schemata.Proofs.Ddl.Order
import Schemata.Proofs.Format.Completeness

/-!
# The names of constraints

The name of a constraint is the name of its table with an ending that says what the constraint is.
The ending can be read off from behind: digits, if there are any, then one letter of two that stands
before the last K. So constraints that differ in table or ending have different names, also where the
name of a table ends like that of a constraint.
-/
namespace Schemata.Ddl
open Schema Text
variable {s : Schema} {id : TableId} {t : Table}

/-- What the name of a constraint says besides the table. -/
inductive Ending
  | primaryKey
  | foreignKey (number : Nat)
deriving DecidableEq, Repr

def constraintName (table : String) : Ending → String
  | .primaryKey => primaryKeyName table
  | .foreignKey number => foreignKeyName table number

namespace Ending

def letter : Ending → Char
  | primaryKey => 'P'
  | foreignKey _ => 'F'

def digits : Ending → List Char
  | primaryKey => []
  | foreignKey number => (toString number).toList

theorem not_mem_digits (e : Ending) : 'K' ∉ e.digits := by
  cases e with
  | primaryKey => exact List.not_mem_nil
  | foreignKey number =>
    rw [digits, Nat.toString_eq_repr, Nat.toList_repr]
    exact not_mem_decimal rfl number

theorem eq_of_letter_of_digits {e e' : Ending} (hletter : e.letter = e'.letter)
    (hdigits : e.digits = e'.digits) : e = e' := by
  cases e <;> cases e'
  case primaryKey.primaryKey => rfl
  case foreignKey.foreignKey number number' =>
    exact congrArg foreignKey (toString_inj (String.toList_inj.1 hdigits))
  all_goals simp [letter] at hletter

end Ending

theorem toList_constraintName (table : String) (e : Ending) :
    (constraintName table e).toList = table.toList ++ ['_', e.letter, 'K'] ++ e.digits := by
  cases e <;>
    simp [constraintName, primaryKeyName, foreignKeyName, Ending.letter, Ending.digits]

/-- A name cut at its last K. -/
theorem cut_constraintName (table : String) (e : Ending) :
    cut 'K' (constraintName table e).toList.reverse =
      (e.digits.reverse, some (e.letter :: '_' :: table.toList.reverse)) := by
  rw [toList_constraintName]
  simpa using cut_append (e.letter :: '_' :: table.toList.reverse)
    (fun h => e.not_mem_digits (List.mem_reverse.1 h))

theorem constraintName_inj {table table' : String} {e e' : Ending}
    (h : constraintName table e = constraintName table' e') : table = table' ∧ e = e' := by
  have hcut := cut_constraintName table e
  rw [h, cut_constraintName, Prod.mk.injEq, Option.some.injEq, List.cons.injEq,
    List.cons.injEq] at hcut
  obtain ⟨hdigits, hletter, -, htable⟩ := hcut
  exact ⟨(String.toList_inj.1 (List.reverse_injective htable)).symm,
    (Ending.eq_of_letter_of_digits hletter (List.reverse_injective hdigits)).symm⟩

/-! ### Names in a script -/

/-- The ending of the name that an item has if it is a constraint. -/
def Item.ending? : Item → Option Ending
  | column _ => none
  | primaryKey _ => some .primaryKey
  | foreignKey k => some (.foreignKey k.number)

namespace CreateTable

def endings (t : CreateTable) : List Ending := t.items.filterMap Item.ending?

/-- The names of the constraints of a table, in the order in which they are written. -/
def constraintNames (t : CreateTable) : List String := t.endings.map (constraintName t.name)

end CreateTable

/-- The names that a script gives to constraints. -/
def Script.constraintNames (script : Script) : List String :=
  script.tables.flatMap CreateTable.constraintNames

namespace CreateTable

/-- The items that are constraints. -/
def constraints (t : CreateTable) : List Item := t.keyItems ++ t.foreignKeys.map .foreignKey

theorem endings_eq (t : CreateTable) : t.endings =
    (if t.primaryKey = [] then [] else [.primaryKey]) ++ t.foreignKeys.map (.foreignKey ·.number) := by
  rw [endings, items, keyItems]
  split <;> simp [List.filterMap_map, Function.comp_def, Item.ending?]

theorem forall₂_endings (t : CreateTable) :
    List.Forall₂ (fun e item => item.ending? = some e) t.endings t.constraints := by
  rw [endings_eq, constraints, keyItems]
  refine List.rel_append ?_ ?_
  · split
    · exact .nil
    · exact .cons rfl .nil
  · rw [List.forall₂_map_left_iff, List.forall₂_map_right_iff, List.forall₂_same]
    exact fun _ _ => rfl

end CreateTable

theorem Item.exists_line {item : Item} {e : Ending} (h : item.ending? = some e) (table : String) :
    ∃ rest, item.text table = "\tCONSTRAINT " ++ constraintName table e ++ " " ++ rest := by
  cases item with
  | column c => cases h
  | primaryKey columns =>
    cases h
    have hmark : " PRIMARY KEY (" = " " ++ "PRIMARY KEY (" := rfl
    refine ⟨"PRIMARY KEY (" ++ (", ".intercalate columns ++ ")"), ?_⟩
    unfold text primaryKeyText constraintName
    simp only [hmark, String.append_assoc]
  | foreignKey k =>
    cases h
    have hmark : " FOREIGN KEY(" = " " ++ "FOREIGN KEY(" := rfl
    refine ⟨"FOREIGN KEY(" ++ (k.column ++ (") REFERENCES " ++ (k.table ++ ("(" ++ (k.target ++
      ")"))))), ?_⟩
    unfold text foreignKeyText constraintName
    simp only [hmark, String.append_assoc]

/-- Each constraint is a line in the text of its table and tells its name. -/
structure CreateTable.TellsNames (t : CreateTable) : Prop where
  text : tableText t = "CREATE TABLE " ++ t.name ++ " (\r\n" ++ ",\r\n".intercalate
    (t.columns.map columnText ++ t.constraints.map (Item.text t.name)) ++ "\r\n);\r\n\r\n"
  lines : List.Forall₂ (fun name line => ∃ rest, line = "\tCONSTRAINT " ++ name ++ " " ++ rest)
    t.constraintNames (t.constraints.map (Item.text t.name))
  form : ∀ name ∈ t.constraintNames,
    name = t.name ++ "_PK" ∨ ∃ n : Nat, name = t.name ++ "_FK" ++ toString n

theorem tellsNames_definition (s : Schema) (id : TableId) : (definition s id).TellsNames where
  text := by
    rw [tableText_eq (founded_definition s id), CreateTable.items, CreateTable.constraints]
    simp only [List.map_append, List.map_map, List.append_assoc, lineEnd, separator,
      String.append_assoc]
    rfl
  lines := by
    rw [CreateTable.constraintNames, List.forall₂_map_left_iff, List.forall₂_map_right_iff]
    exact (definition s id).forall₂_endings.imp fun _ _ h => Item.exists_line h _
  form name hname := by
    obtain ⟨e, -, rfl⟩ := List.mem_map.1 hname
    cases e with
    | primaryKey => exact .inl rfl
    | foreignKey number => exact .inr ⟨number, rfl⟩

/-! ### Names that differ -/

theorem nodup_endings (s : Schema) (id : TableId) : (definition s id).endings.Nodup := by
  have hnumbers : (definition s id).foreignKeys.map (Ending.foreignKey ·.number) =
      (List.range' 1 (references s id).length).map .foreignKey := by
    rw [definition, List.map_map, ← List.zipIdx_map_snd, List.map_map]
    rfl
  rw [CreateTable.endings_eq, hnumbers, List.nodup_append]
  have hnodup : ((List.range' 1 (references s id).length).map Ending.foreignKey).Nodup :=
    List.Nodup.map (fun _ _ => Ending.foreignKey.inj) List.nodup_range'
  refine ⟨by split <;> simp, hnodup, ?_⟩
  intro e he e' he'
  obtain ⟨number, -, rfl⟩ := List.mem_map.1 he'
  split at he
  · cases he
  · rw [List.mem_singleton.1 he]
    simp

/-- Tables of a schema that are different have no constraint name in common. -/
theorem nodup_constraintNames (hl : Layout s) {order : List TableId} (horder : order.Nodup)
    (hknown : ∀ id ∈ order, id ∈ s.tableIds) (database : String) :
    (⟨database, order.map (definition s)⟩ : Script).constraintNames.Nodup := by
  rw [Script.constraintNames, List.nodup_flatMap]
  constructor
  · intro t ht
    obtain ⟨id, -, rfl⟩ := List.mem_map.1 ht
    exact (nodup_endings s id).map fun e e' h => (constraintName_inj h).2
  · rw [List.pairwise_map]
    refine horder.imp_of_mem fun {id id'} hid hid' hne name hname hname' => hne ?_
    obtain ⟨t, ht⟩ := mem_tableIds.1 (hknown id hid)
    obtain ⟨t', ht'⟩ := mem_tableIds.1 (hknown id' hid')
    obtain ⟨e, -, rfl⟩ := List.mem_map.1 hname
    obtain ⟨e', -, he⟩ := List.mem_map.1 hname'
    have htables : (s.tableAt id').name = (s.tableAt id).name := (constraintName_inj he).1
    rw [tableAt_eq ht, tableAt_eq ht'] at htables
    exact hl.eq_of_tableName ht ht' htables.symm

/-- Whatever tables are called: a script for different tables of a schema gives no two constraints
one name. -/
theorem script_constraintNames (ops : List Operation) (selection : List TableId)
    (hselection : selection.Nodup) (database : String) :
    ((∃ text, writeSchema (ofHistory ops) selection (some database) = .ok text) ↔
        ∀ id ∈ selection, id ∈ (ofHistory ops).tableIds) ∧
      ∀ text, writeSchema (ofHistory ops) selection (some database) = .ok text →
        ∃ script, Ddl.script (ofHistory ops) selection database = .ok script ∧
          text = scriptText script ∧ (∀ t ∈ script.tables, t.TellsNames) ∧
          script.constraintNames.Nodup := by
  have hs : Reachable (ofHistory ops) := ⟨ops, rfl⟩
  generalize ofHistory ops = s at hs
  have haccepted : (∃ text, writeSchema s selection (some database) = .ok text) ↔
      ∀ id ∈ selection, id ∈ s.tableIds := by
    simp only [(defines_of_reachable hs selection).accepted, mem_tableIds]
  refine ⟨haccepted, fun text htext => ?_⟩
  have hknown := haccepted.1 ⟨text, htext⟩
  cases htext.symm.trans (writeSchema_eq_ok hs hknown database)
  refine ⟨_, script_eq_ok hs hknown database, rfl, ?_, ?_⟩
  · intro t ht
    obtain ⟨id, -, rfl⟩ := List.mem_map.1 ht
    exact tellsNames_definition s id
  · have horder : (creationOrder s selection).Nodup :=
      (List.mergeSort_perm selection _).nodup_iff.2 hselection
    exact nodup_constraintNames (layout_invariant.holds hs) horder
      (fun id hid => hknown id (mem_creationOrder.1 hid)) database

/-- Tables that are called like constraints of one another. -/
def lookalikes : List Operation :=
  [.addTable "A", .addTable "A_FK1", .addTable "A_PK", .addField ⟨0⟩ "id", .addField ⟨1⟩ "a",
    .addField ⟨2⟩ "a", .updateField ⟨0⟩ [.primaryKey true], .updateField ⟨1⟩ [.primaryKey true],
    .addRelated ⟨0⟩ ⟨0⟩, .bind ⟨0⟩ ⟨0⟩, .addRelated ⟨1⟩ ⟨0⟩, .bind ⟨1⟩ ⟨0⟩, .addRelated ⟨2⟩ ⟨0⟩,
    .bind ⟨2⟩ ⟨0⟩]

/-- Of these tables, two keys and three references are named. -/
theorem lookalikes_constraintNames : [(⟨2⟩ : TableId), ⟨0⟩, ⟨1⟩].Nodup ∧ ∃ text script,
    writeSchema (ofHistory lookalikes) [⟨2⟩, ⟨0⟩, ⟨1⟩] (some "db") = .ok text ∧
      Ddl.script (ofHistory lookalikes) [⟨2⟩, ⟨0⟩, ⟨1⟩] "db" = .ok script ∧
      text = scriptText script ∧ (∀ t ∈ script.tables, t.TellsNames) ∧
      script.constraintNames = ["A_PK_FK1", "A_PK", "A_FK1", "A_FK1_PK", "A_FK1_FK1"] ∧
      script.constraintNames.Nodup := by
  have hselection : [(⟨2⟩ : TableId), ⟨0⟩, ⟨1⟩].Nodup := by decide
  have hknown : ∀ id ∈ [(⟨2⟩ : TableId), ⟨0⟩, ⟨1⟩], id ∈ (ofHistory lookalikes).tableIds := by
    decide
  have horder : creationOrder (ofHistory lookalikes) [⟨2⟩, ⟨0⟩, ⟨1⟩] = [⟨2⟩, ⟨0⟩, ⟨1⟩] :=
    creationOrder_eq_self (by decide)
  obtain ⟨haccepted, hwritten⟩ := script_constraintNames lookalikes _ hselection "db"
  obtain ⟨text, htext⟩ := haccepted.2 hknown
  obtain ⟨script, hscript, heq, htells, hnodup⟩ := hwritten text htext
  have hnames : script.constraintNames =
      ["A_PK_FK1", "A_PK", "A_FK1", "A_FK1_PK", "A_FK1_FK1"] := by
    rw [script_eq_ok ⟨lookalikes, rfl⟩ hknown, horder] at hscript
    cases hscript
    decide +kernel
  exact ⟨hselection, text, script, htext, hscript, heq, htells, hnames, hnodup⟩

end Schemata.Ddl
