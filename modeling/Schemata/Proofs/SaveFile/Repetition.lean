import Schemata.Proofs.Model.Refusals
import Schemata.Proofs.SaveFile.Acceptance
import Schemata.Proofs.SaveFile.RoundTrip

/-!
# Tables selected again

A table that is selected again gets another block of the same name. Such a file is written, but it
is not read: the first block whose name stands already in an earlier one is refused.
-/
namespace Schemata.SaveFile
open Schema Outline Text
variable {s : Schema} {selection : List TableId} {file : SaveFile} {b : Block}

/-! ### Blocks of one name -/

theorem addTable_of_name {bs : List Block} (h : b.name ∈ bs.map Block.name) :
    addTable (draft { blocks := bs }) b = .error (.schema (.duplicateTable b.name)) := by
  have hends := Schema.ends_addTable (schema { blocks := bs }) b.name
  cases hadd : (schema { blocks := bs }).addTable b.name with
  | ok c =>
    obtain ⟨c', hc', hname⟩ := List.mem_map.1 h
    exact absurd hname ((hends.given hadd).1 _ (List.mem_map_of_mem hc'))
  | error e =>
    cases hends.refused hadd
    simp only [addTable, draft, hadd, accepted, Except.mapError, Bind.bind, Except.bind]

/-- Blocks are refused at the first one that repeats a name. -/
theorem toSchema_of_repeated {bs rest : List Block} (hblocks : file.blocks = bs ++ b :: rest)
    (hbs : (bs.map Block.name).Nodup) (hb : b.name ∈ bs.map Block.name) :
    file.toSchema = .error (.schema (.duplicateTable b.name)) := by
  have hbefore : bs.foldlM addTable ({}, {}) = .ok (draft { blocks := bs }) :=
    foldlM_addTable bs [] hbs
  have htables : file.blocks.foldlM addTable ({}, {}) =
      .error (.schema (.duplicateTable b.name)) := by
    rw [hblocks, List.foldlM_append, hbefore]
    change List.foldlM addTable (draft { blocks := bs }) (b :: rest) = _
    rw [List.foldlM_cons, addTable_of_name hb]
    rfl
  rw [toSchema, htables]
  rfl

/-- Only blocks of different names are accepted. -/
theorem nodup_names_of_toSchema {s' : Schema} (h : file.toSchema = .ok s') :
    (file.blocks.map Block.name).Nodup := by
  simp only [toSchema, bind_eq_ok] at h
  obtain ⟨_, htables, -⟩ := h
  exact names_of_foldlM [] List.nodup_nil htables

/-! ### Written files -/

theorem map_name_ofSchema (h : (ofSchema s selection).outcome = .ok file) :
    file.blocks.map Block.name = selection.map fun id => (s.tableAt id).name := by
  obtain ⟨n, -, h⟩ := ofSchema_eq_ok.1 h
  simp only [numbered, bind_eq_ok, pure_eq_ok] at h
  obtain ⟨blocks, hblocks, rows, -, rfl⟩ := h
  have hnames : List.Forall₂ (· = ·) (selection.map fun id => (s.tableAt id).name)
      (blocks.map Block.name) := by
    rw [List.forall₂_map_left_iff, List.forall₂_map_right_iff]
    apply (forall₂_of_mapM hblocks).imp
    intro id b hb
    simp only [tableBlock, bind_eq_ok, writtenTable_eq_ok, pure_eq_ok] at hb
    obtain ⟨t, ht, _, -, _, -, _, -, rfl⟩ := hb
    rw [tableAt_eq ht]
  rw [List.forall₂_eq_eq_eq] at hnames
  exact hnames.symm

section Written
variable (hl : Layout s) (hsize : selection.length + (s.selected selection).length < wordLimit)
  (h : (ofSchema s selection).outcome = .ok file)
include hl hsize h

theorem nodup_of_readSchema {s' : Schema} (hread : readSchema file.render = .ok s') :
    selection.Nodup := by
  rw [readSchema, ofText_render (writable_ofSchema hl hsize h)] at hread
  have hnames := nodup_names_of_toSchema hread
  rw [map_name_ofSchema h] at hnames
  exact hnames.of_map

/-- A file is refused for the first table that is listed again. -/
theorem readSchema_of_repeated {before after : List TableId} {id : TableId}
    (hsplit : selection = before ++ id :: after) (hbefore : before.Nodup) (hid : id ∈ before) :
    ∃ t, s.table? id = some t ∧
      readSchema file.render = .error (.schema (.duplicateTable t.name)) := by
  have hr := representable_of_ofSchema hl h
  have hmem : ∀ id' ∈ before ++ [id], id' ∈ selection := by
    intro id' hid'
    rw [hsplit, List.append_cons]
    exact List.mem_append_left after hid'
  have hnames := map_name_ofSchema h
  rw [hsplit, List.map_append] at hnames
  obtain ⟨bs, rest, hblocks, hbs, hrest⟩ := List.map_eq_append_iff.1 hnames
  obtain ⟨b, rest, rfl, hb, -⟩ := List.map_eq_cons_iff.1 hrest
  replace hb : b.name = (s.tableAt id).name := hb
  obtain ⟨t, ht, -⟩ := hr.tables id (hmem id (List.mem_append_right before List.mem_cons_self))
  refine ⟨t, ht, ?_⟩
  have hnodup : (bs.map Block.name).Nodup := by
    rw [hbs]
    apply hbefore.map_on
    intro i hi j hj hij
    obtain ⟨u, hu, -⟩ := hr.tables i (hmem i (List.mem_append_left _ hi))
    obtain ⟨v, hv, -⟩ := hr.tables j (hmem j (List.mem_append_left _ hj))
    rw [tableAt_eq hu, tableAt_eq hv] at hij
    exact hl.eq_of_tableName hu hv hij
  have hname : b.name ∈ bs.map Block.name := by
    rw [hbs, hb]
    exact List.mem_map_of_mem hid
  rw [readSchema, ofText_render (writable_ofSchema hl hsize h), ← tableAt_eq ht, ← hb]
  exact toSchema_of_repeated hblocks hnodup hname

end Written

/-- What is written of a reachable schema is read exactly if no table is selected twice. Otherwise
it is refused with the name of the first table that is listed again. -/
theorem readSchema_iff_nodup (ops : List Operation) {selection : List TableId}
    (hsize : selection.length + ((ofHistory ops).selected selection).length < 2 ^ 32)
    {text : String} (h : (writeSchema (ofHistory ops) selection).outcome = .ok text) :
    ((∃ s', readSchema text = .ok s') ↔ selection.Nodup) ∧
      ∀ before id after, selection = before ++ id :: after → before.Nodup → id ∈ before →
        ∃ t, (ofHistory ops).table? id = some t ∧
          readSchema text = .error (.schema (.duplicateTable t.name)) := by
  have hl := layout_invariant.ofHistory ops
  obtain ⟨file, hfile, rfl⟩ := writeSchema_eq_ok.1 h
  refine ⟨⟨?_, ?_⟩, ?_⟩
  · rintro ⟨s', hs'⟩
    exact nodup_of_readSchema hl hsize hfile hs'
  · intro hs
    obtain ⟨s', hs', -⟩ := exists_restored hl (relations_invariant.ofHistory ops)
      (references_invariant.ofHistory ops) hs hsize h
    exact ⟨s', hs'⟩
  · exact fun _ _ _ => readSchema_of_repeated hl hsize hfile

/-- The books, the authors, and the books again: the later numbers stand in both blocks. -/
def booksAgain : String :=
  String.ofList (unlines (["EdgeConvert Save File", "#Tables#",
    "Table: 7", "\x7b", "TableName: Book", "NativeFields: 8|9|10", "RelatedTables: 5",
    "RelatedFields: 6|0|0", "\x7d",
    "Table: 5", "\x7b", "TableName: Author", "NativeFields: 6", "RelatedTables: ",
    "RelatedFields: 0", "\x7d",
    "Table: 7", "\x7b", "TableName: Book", "NativeFields: 8|9|10", "RelatedTables: 5",
    "RelatedFields: 6|0|0", "\x7d",
    "#Fields#",
    "8|author|7|6|5|0|1|false|false|", "9|title|7|null|null|0|50|false|true| a|b ",
    "10|shop|7|null|null|0|1|false|false|", "6|id|5|null|null|3|1|true|false|",
    "8|author|7|6|5|0|1|false|false|", "9|title|7|null|null|0|50|false|true| a|b ",
    "10|shop|7|null|null|0|1|false|false|"].map String.toList))

theorem booksAgain_refused :
    [(⟨1⟩ : TableId), ⟨0⟩, ⟨1⟩].length +
      ((ofHistory bookshop).selected [⟨1⟩, ⟨0⟩, ⟨1⟩]).length < 2 ^ 32 ∧
    (writeSchema (ofHistory bookshop) [⟨1⟩, ⟨0⟩, ⟨1⟩]).outcome = .ok booksAgain ∧
    (¬∃ s', readSchema booksAgain = .ok s') ∧
    readSchema booksAgain = .error (.schema (.duplicateTable "Book")) := by
  have hwritten : (writeSchema (ofHistory bookshop) [⟨1⟩, ⟨0⟩, ⟨1⟩]).outcome = .ok booksAgain := by
    set_option maxRecDepth 10000 in rfl
  have hbook : ((ofHistory bookshop).table? ⟨1⟩).map Table.name = some "Book" := rfl
  obtain ⟨hread, hrefused⟩ := readSchema_iff_nodup bookshop (by decide) hwritten
  obtain ⟨t, ht, herror⟩ := hrefused [⟨1⟩, ⟨0⟩] ⟨1⟩ [] rfl (by decide) (by decide)
  rw [ht, Option.map_some, Option.some.injEq] at hbook
  rw [hbook] at herror
  exact ⟨by decide, hwritten, mt hread.1 (by decide), herror⟩

/-- One table with one field, selected twice. -/
def singleTwice : String :=
  String.ofList (unlines (["EdgeConvert Save File", "#Tables#",
    "Table: 3", "\x7b", "TableName: T", "NativeFields: 4", "RelatedTables: ",
    "RelatedFields: 0", "\x7d",
    "Table: 3", "\x7b", "TableName: T", "NativeFields: 4", "RelatedTables: ",
    "RelatedFields: 0", "\x7d",
    "#Fields#", "4|id|3|null|null|0|1|false|false|", "4|id|3|null|null|0|1|false|false|"].map
    String.toList))

theorem singleTwice_not_read :
    [(⟨0⟩ : TableId), ⟨0⟩].length + ((ofHistory [.addTable "T", .addField ⟨0⟩ "id"]).selected
      [⟨0⟩, ⟨0⟩]).length < 2 ^ 32 ∧
    (writeSchema (ofHistory [.addTable "T", .addField ⟨0⟩ "id"]) [⟨0⟩, ⟨0⟩]).outcome =
      .ok singleTwice ∧
    ¬∃ s', readSchema singleTwice = .ok s' := by
  have hwritten : (writeSchema (ofHistory [.addTable "T", .addField ⟨0⟩ "id"])
      [⟨0⟩, ⟨0⟩]).outcome = .ok singleTwice := by
    set_option maxRecDepth 10000 in rfl
  refine ⟨by decide, hwritten, ?_⟩
  obtain ⟨file, hfile, hrender⟩ := writeSchema_eq_ok.1 hwritten
  rintro ⟨s', hs'⟩
  rw [← hrender] at hs'
  have hnodup := nodup_of_readSchema (layout_invariant.ofHistory _) (by decide) hfile hs'
  exact absurd hnodup (by decide)

end Schemata.SaveFile
