import Schemata.Format.Conversion
import Schemata.Proofs.Format.Reachability
import Schemata.Proofs.SaveFile.Copies
import Schemata.Proofs.SaveFile.Description

/-!
# Save files are canonical

A save file that comes of a conversion is its own conversion: reading it gives a copy of the schema
that it was written of, and a copy has the same file.
-/
namespace Schemata
open Schema

theorem run_eq_ok_iff {c : Conversion} {readFile : String → Except FileFault String}
    {text u : String} {db : Option String} :
    (c.run readFile (.text text) db).outcome = .ok u ↔
      ∃ s, (c.input.read text).outcome = .ok s ∧
        (c.output.produce s s.tableIds db).outcome = .ok u := by
  unfold Conversion.run
  rw [outcome_bind_eq_ok]
  constructor
  · rintro ⟨text', htext, h⟩
    cases htext
    obtain ⟨s, hs, hu⟩ := outcome_bind_eq_ok.1 h
    exact ⟨s, mapError_eq_ok.1 hs, mapError_eq_ok.1 hu⟩
  · rintro ⟨s, hs, hu⟩
    exact ⟨text, rfl, outcome_bind_eq_ok.2 ⟨s, mapError_eq_ok.2 hs, mapError_eq_ok.2 hu⟩⟩

/-- A conversion is accepted if both formats are known, the text is read and the schema written. -/
theorem convert_eq_ok_iff {c : Catalog} {text source target u : String} {db : Option String} :
    (c.convert text source target db).outcome = .ok u ↔
      ∃ f g s, c.input? source = some f ∧ c.output? target = some g ∧
        (f.read text).outcome = .ok s ∧ (g.produce s s.tableIds db).outcome = .ok u := by
  unfold Catalog.convert
  rw [outcome_bind_eq_ok]
  change (∃ conversion, c.conversion source target = .ok conversion ∧ _) ↔ _
  unfold Catalog.conversion
  cases hf : c.input? source with
  | none => simp
  | some f =>
    cases hg : c.output? target with
    | none => simp
    | some g => simp [run_eq_ok_iff]

theorem firstUnknown?_tableIds (s : Schema) : s.firstUnknown? s.tableIds = none := by
  rw [firstUnknown?, List.find?_eq_none]
  intro id hid
  obtain ⟨t, ht⟩ := mem_tableIds.1 hid
  simp [ht]

/-- A save file needs no database, and all tables are known. -/
theorem produce_save (s : Schema) (db : Option String) :
    saveOutputFormat.produce s s.tableIds db = SaveFile.writeSchema s s.tableIds := by
  simp [OutputFormat.produce, firstUnknown?_tableIds, saveOutputFormat]

theorem input?_sav (document : Xml.DocumentReader) :
    (Catalog.standardWith document).input? "sav" = some saveInputFormat := by
  have hxml : namesFormat "sav" "xml" "XML Diagrammer File" = false := by rfl
  change [xmlFormatWith document, saveInputFormat, diagramFormat].find? _ = _
  rw [List.find?_cons_of_neg (by simp [xmlFormatWith, hxml])]
  rfl

theorem output?_sav (document : Xml.DocumentReader) :
    (Catalog.standardWith document).output? "sav" = some saveOutputFormat := by
  rfl

/-- Whatever a text was converted from, and however documents are read, its save file does not change when it is converted again. -/
theorem convert_save_canonical {document : Xml.DocumentReader} {text source u : String}
    {db : Option String} {f : InputFormat} {s : Schema}
    (hf : (Catalog.standardWith document).input? source = some f)
    (hs : (f.read text).outcome = .ok s) (hsize : s.tables.length + s.fields.length < 2 ^ 32)
    (h : ((Catalog.standardWith document).convert text source "sav" db).outcome = .ok u)
    (db' : Option String) :
    ((Catalog.standardWith document).convert u "sav" "sav" db').outcome = .ok u := by
  obtain ⟨_, g, _, hf', hg, hs', hu⟩ := convert_eq_ok_iff.1 h
  cases hf.symm.trans hf'
  cases hs.symm.trans hs'
  cases (output?_sav document).symm.trans hg
  rw [produce_save] at hu
  have hreach := reachable_of_input hf hs
  have hl := layout_invariant.holds hreach
  obtain ⟨s', hread, hcopy⟩ := SaveFile.exists_copy hl (relations_invariant.holds hreach)
    (references_invariant.holds hreach) hsize hu
  have hl' := layout_invariant.holds (SaveFile.reachable_readSchema hread)
  have hwritten : (saveOutputFormat.produce s' s'.tableIds db').outcome = .ok u := by
    rw [produce_save]
    exact hcopy.writeSchema_eq_ok hl hl' hu
  exact convert_eq_ok_iff.2 ⟨_, _, s', input?_sav _, output?_sav _, hread, hwritten⟩

/-- The file of the orders with numbers from one on and all columns listed. -/
def ordersText : String :=
  String.ofList (SaveFile.unlines (["EdgeConvert Save File", "#Tables#",
    "Table: 1", "\x7b", "TableName: Order", "NativeFields: 2|3|4", "RelatedTables: 1|5",
    "RelatedFields: 0|6|2", "\x7d",
    "Table: 5", "\x7b", "TableName: Person", "NativeFields: 6", "RelatedTables: ",
    "RelatedFields: 0", "\x7d",
    "#Fields#",
    "2|number|1|null|null|3|1|true|true|0", "3|buyer|1|6|5|3|1|false|true|",
    "4|parent|1|2|1|3|1|false|false|", "6|name|5|null|null|0|50|true|false|"].map
    String.toList))

theorem orders_canonical : Catalog.standard.input? ".SAV" = some saveInputFormat ∧
    (saveInputFormat.read SaveFile.orders.render).outcome = .ok SaveFile.ordersSchema ∧
    SaveFile.ordersSchema.tables.length + SaveFile.ordersSchema.fields.length < 2 ^ 32 ∧
    (Catalog.standard.convert SaveFile.orders.render ".SAV" "sav" none).outcome =
      .ok ordersText ∧
    (Catalog.standard.convert ordersText "sav" "sav" (some "shop")).outcome = .ok ordersText := by
  have hwritable : SaveFile.Writable SaveFile.orders := by
    refine ⟨fun b hb => ?_, fun r hr => ?_⟩
    · simp only [SaveFile.orders, List.mem_cons, List.not_mem_nil, or_false] at hb
      rcases hb with rfl | rfl <;> constructor <;> decide
    · simp only [SaveFile.orders, List.mem_cons, List.not_mem_nil, or_false] at hr
      rcases hr with rfl | rfl | rfl | rfl <;> constructor <;> decide
  have hf : Catalog.standard.input? ".SAV" = some saveInputFormat := rfl
  have hread : (saveInputFormat.read SaveFile.orders.render).outcome =
      .ok SaveFile.ordersSchema := by
    change SaveFile.readSchema SaveFile.orders.render = .ok SaveFile.ordersSchema
    rw [SaveFile.readSchema, SaveFile.ofText_render hwritable]
    rfl
  have hwritten : (SaveFile.writeSchema SaveFile.ordersSchema
      SaveFile.ordersSchema.tableIds).outcome = .ok ordersText := by
    set_option maxRecDepth 10000 in rfl
  have hconverted : (Catalog.standard.convert SaveFile.orders.render ".SAV" "sav" none).outcome =
      .ok ordersText :=
    convert_eq_ok_iff.2 ⟨_, _, _, hf, output?_sav _, hread, hwritten⟩
  have hsize : SaveFile.ordersSchema.tables.length + SaveFile.ordersSchema.fields.length <
      2 ^ 32 := by decide
  exact ⟨hf, hread, hsize, hconverted,
    convert_save_canonical hf hread hsize hconverted (some "shop")⟩

end Schemata
