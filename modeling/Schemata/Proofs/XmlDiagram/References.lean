import Schemata.Proofs.Model.Bindings
import Schemata.Proofs.Model.Selection
import Schemata.Proofs.XmlDiagram.Relations

/-!
# The references of a document

After any number of relations a table is related to the parents that they name for it, and a field
is bound by the last of them that names it. Each relation keeps this up for one more.
-/
namespace Schemata.XmlDiagram
open Xml
variable {s s' : Schema} {tables done : List Node} {element root : Node} {name table field : String}
  {id : TableId} {native foreign : FieldId}

/-- The last relation that names a field as its foreign key. -/
def lastRelation? (relations : List Node) (table field : String) : Option Node :=
  relations.reverse.find? fun r => endTable (childEnd r) == table && nativeName r == field

theorem lastRelation?_push (done : List Node) (element : Node) (table field : String) :
    lastRelation? (done ++ [element]) table field =
      if endTable (childEnd element) = table ∧ nativeName element = field then some element
      else lastRelation? done table field := by
  rw [lastRelation?, List.reverse_append, List.reverse_singleton, List.singleton_append,
    List.find?_cons]
  by_cases h : endTable (childEnd element) = table ∧ nativeName element = field
  · simp [h]
  · rw [if_neg h]
    split
    · rename_i hnames
      simp only [Bool.and_eq_true, beq_iff_eq] at hnames
      exact absurd hnames h
    · rfl

/-- The parent of each relation that names a table as its child. -/
def parentPlaces (tables relations : List Node) (table : String) : List TableId :=
  (relations.filter fun r => endTable (childEnd r) == table).map fun r =>
    tablePlace tables (endTable (parentEnd r))

theorem eraseDups_parentPlaces_push (tables done : List Node) (element : Node) (table : String) :
    (parentPlaces tables (done ++ [element]) table).eraseDups =
      if endTable (childEnd element) = table then
        enlist (parentPlaces tables done table).eraseDups
          (tablePlace tables (endTable (parentEnd element)))
      else (parentPlaces tables done table).eraseDups := by
  unfold parentPlaces
  rw [List.filter_append, List.map_append, ← foldl_enlist_nil, List.foldl_append, foldl_enlist_nil]
  by_cases h : endTable (childEnd element) = table <;> simp [h]

/-- What relations make of the tables of a document. -/
structure Linked (tables relations : List Node) (s : Schema) : Prop where
  /-- The parents of a table, each once, in the order of their first relations. -/
  related : ∀ {id t}, s.table? id = some t →
    t.related = (parentPlaces tables relations t.name).eraseDups
  unbound : ∀ {f a t}, s.field? f = some a → s.table? a.table = some t →
    lastRelation? relations t.name a.name = none → a.foreign = none
  bound : ∀ {f a t r}, s.field? f = some a → s.table? a.table = some t →
    lastRelation? relations t.name a.name = some r → ∃ g b, a.foreign = some g ∧
      s.field? g = some b ∧ b.table = tablePlace tables (endTable (parentEnd r)) ∧
      b.name = foreignName r

theorem linked_nil (h : Unlinked s) : Linked tables [] s where
  related ht := (h.tables _ (Schema.mem_tables_iff.2 ⟨_, ht⟩)).1
  unbound ha _ _ := h.fields _ (Schema.mem_fields_iff.2 ⟨_, ha⟩)
  bound _ _ hlast := nomatch hlast

/-! ### Steps -/

theorem table?_withRelation {t' : Table}
    (ht : (withRelation tables s element native foreign).table? id = some t') :
    ∃ t, s.table? id = some t ∧ t'.name = t.name ∧
      t'.related = if id = tablePlace tables (endTable (childEnd element)) then
        enlist t.related (tablePlace tables (endTable (parentEnd element))) else t.related := by
  rw [withRelation, Schema.table?_withBinding, Schema.table?_withRelated,
    Schema.table?_withRelated, if_pos rfl] at ht
  by_cases hid : id = tablePlace tables (endTable (childEnd element))
  · rw [if_pos hid, Option.map_map] at ht
    obtain ⟨t, hs, rfl⟩ := Option.map_eq_some_iff.1 ht
    exact ⟨t, hid ▸ hs, rfl, (if_pos hid).symm⟩
  · rw [if_neg hid, if_neg hid] at ht
    exact ⟨t', ht, rfl, (if_neg hid).symm⟩

theorem field?_withRelation (f : FieldId) :
    (withRelation tables s element native foreign).field? f = if f = native then
      (s.field? native).map fun a => { a with foreign := some foreign } else s.field? f :=
  Schema.field?_withBinding ..

/-- A field stays in its table under its name. -/
theorem exists_field_withRelation {f : FieldId} {a : Field} (ha : s.field? f = some a) :
    ∃ a', (withRelation tables s element native foreign).field? f = some a' ∧
      a'.table = a.table ∧ a'.name = a.name := by
  rw [field?_withRelation]
  by_cases hf : f = native
  · rw [if_pos hf, ← hf, ha]
    exact ⟨_, rfl, rfl, rfl⟩
  · exact ⟨a, (if_neg hf).trans ha, rfl, rfl⟩

/-! ### Places -/

theorem Lists.place_eq (h : Lists tables s) (hl : s.Layout) {t : Table}
    (ht : s.table? id = some t) : tablePlace tables t.name = id := by
  have hname : (tables.map tableName)[id.index]? = some t.name := by
    rw [← h.tableNames, List.getElem?_map, show s.tables[id.index]? = some t from ht,
      Option.map_some]
  exact congrArg TableId.mk (idxOf_of_getElem? (h.tableNames ▸ hl.names) hname)

theorem Lists.name_eq (h : Lists tables s) {t : Table}
    (ht : s.table? (tablePlace tables name) = some t) : t.name = name := by
  have hname : (tables.map tableName)[(tables.map tableName).idxOf name]? = some t.name := by
    rw [← h.tableNames, List.getElem?_map, h.tableNames]
    exact congrArg (Option.map (·.name)) ht
  obtain ⟨hlt, he⟩ := List.getElem?_eq_some_iff.1 hname
  exact he.symm.trans (List.getElem_idxOf hlt)

theorem Lists.eq_name_iff (h : Lists tables s) (hl : s.Layout) {t : Table}
    (ht : s.table? id = some t) (name : String) : name = t.name ↔ id = tablePlace tables name := by
  constructor
  · rintro rfl
    exact (h.place_eq hl ht).symm
  · rintro rfl
    exact (h.name_eq ht).symm

/-- No other field has the table and the name of the native one. -/
theorem Names.native_iff (h : Names tables s element native foreign) (hlists : Lists tables s)
    (hl : s.Layout) {f : FieldId} {a : Field} {t : Table} (ha : s.field? f = some a)
    (ht : s.table? a.table = some t) :
    endTable (childEnd element) = t.name ∧ nativeName element = a.name ↔ f = native := by
  obtain ⟨c, hc, hct, hcn⟩ := h.native
  rw [hlists.eq_name_iff hl ht]
  constructor
  · rintro ⟨htable, hname⟩
    exact hl.eq_of_name ha hc (htable.trans hct.symm) (hname.symm.trans hcn.symm)
  · rintro rfl
    cases ha.symm.trans hc
    exact ⟨hct, hcn.symm⟩

/-- After a relation a field is bound as the relation says, or it is as it was. -/
theorem Names.field_cases (h : Names tables s element native foreign) (hlists : Lists tables s)
    (hl : s.Layout) {f : FieldId} {a' : Field} {t' : Table}
    (ha' : (withRelation tables s element native foreign).field? f = some a')
    (ht' : (withRelation tables s element native foreign).table? a'.table = some t') :
    lastRelation? (done ++ [element]) t'.name a'.name = some element ∧
      a'.foreign = some foreign ∨
    ∃ t, s.field? f = some a' ∧ s.table? a'.table = some t ∧
      lastRelation? (done ++ [element]) t'.name a'.name = lastRelation? done t.name a'.name := by
  obtain ⟨t, ht, hname, -⟩ := table?_withRelation ht'
  rw [field?_withRelation] at ha'
  rw [lastRelation?_push, hname]
  by_cases hf : f = native
  · rw [if_pos hf] at ha'
    obtain ⟨a, ha, rfl⟩ := Option.map_eq_some_iff.1 ha'
    have hnative := (h.native_iff hlists hl (a := a) (hf ▸ ha) ht).2 hf
    exact .inl ⟨if_pos hnative, rfl⟩
  · rw [if_neg hf] at ha'
    exact .inr ⟨t, ha', ht, if_neg (mt (h.native_iff hlists hl ha' ht).1 hf)⟩

/-! ### Runs -/

theorem Linked.push (h : Linked tables done s) (hlists : Lists tables s) (hl : s.Layout)
    (hnames : Names tables s element native foreign) :
    Linked tables (done ++ [element]) (withRelation tables s element native foreign) where
  related ht' := by
    obtain ⟨t, ht, hname, hrelated⟩ := table?_withRelation ht'
    rw [eraseDups_parentPlaces_push, hname, hrelated, h.related ht]
    simp only [hlists.eq_name_iff hl ht]
  unbound ha' ht' hlast := by
    rcases hnames.field_cases hlists hl ha' ht' with ⟨hnative, -⟩ | ⟨t, ha, ht, hsame⟩
    · cases hnative.symm.trans hlast
    · exact h.unbound ha ht (hsame.symm.trans hlast)
  bound ha' ht' hlast := by
    rcases hnames.field_cases hlists hl ha' ht' with ⟨hnative, hforeign⟩ | ⟨t, ha, ht, hsame⟩
    · cases hnative.symm.trans hlast
      obtain ⟨p, hp, hpt, hpn⟩ := hnames.foreign
      obtain ⟨p', hp', hpt', hpn'⟩ := exists_field_withRelation hp
      exact ⟨foreign, p', hforeign, hp', hpt'.trans hpt, hpn'.trans hpn⟩
    · obtain ⟨g, b, hforeign, hb, hbt, hbn⟩ := h.bound ha ht (hsame.symm.trans hlast)
      obtain ⟨b', hb', hbt', hbn'⟩ := exists_field_withRelation hb
      exact ⟨g, b', hforeign, hb', hbt'.trans hbt, hbn'.trans hbn⟩

theorem judged_addRelations (hlists : Lists tables s) (hreach : s.Reachable) (hs : Unlinked s)
    (relations : List Node) : Judged (relations.flatMap (relationFaults tables))
      (fun s' => Lists tables s' ∧ s'.Reachable ∧ Linked tables relations s')
      (relations.foldlM addRelation s) := by
  rw [← faultsAlong_const (relationFaults tables) [] relations]
  apply Judged.foldlM (P := fun done s => Lists tables s ∧ s.Reachable ∧ Linked tables done s)
  · exact ⟨hlists, hreach, linked_nil hs⟩
  · rintro done element - s ⟨hlists, hreach, hlinked⟩
    have hl := Schema.layout_invariant.holds hreach
    apply ((judged_addRelation hlists hl element).also
      (Q := fun s' => Lists tables s' ∧ s'.Reachable) _).mono
    · rintro _ ⟨⟨native, foreign, hnames, rfl⟩, hlists', hreach'⟩
      exact ⟨hlists', hreach', hlinked.push hlists hl hnames⟩
    · exact fun s' hs' => ⟨hlists.addRelation hs', reachable_addRelation hreach hs'⟩

/-! ### Documents -/

/-- What a relation element is refused with: the first that it lacks or names in vain, and only if
there is nothing of this kind, that both of its ends are many. -/
inductive Offends (tables : List Node) (element : Node) : ParseError → Prop
  | gap {e : ParseError} (h : (gaps tables element).head? = some e) : Offends tables element e
  | manyToMany (hcomplete : CompleteRelation tables element)
    (hparent : isMany (parentEnd element) = true) (hchild : isMany (childEnd element) = true) :
    Offends tables element .manyToManyRelation

theorem offends_iff {e : ParseError} :
    Offends tables element e ↔ (relationFaults tables element).head? = some e := by
  rw [relationFaults]
  constructor
  · rintro (h | ⟨hcomplete, hparent, hchild⟩)
    · rw [List.head?_append, h, Option.some_or]
    · rw [gaps_eq_nil.2 hcomplete, faultIf, if_pos ⟨hparent, hchild⟩]
      rfl
  · intro h
    cases hgaps : gaps tables element with
    | nil =>
      rw [hgaps, List.nil_append, faultIf] at h
      split at h
      · rename_i hmany
        cases h
        exact .manyToMany (gaps_eq_nil.1 hgaps) hmany.1 hmany.2
      · cases h
    | cons e' rest =>
      rw [hgaps] at h
      exact .gap (hgaps ▸ h)

/-- The relations of a document whose table section was accepted are accepted exactly if each of
them is lawful, and the first one that is not is the reason why the document is refused. -/
theorem readRoot_relations {s₀ : Schema} (hsection : readSection root = .ok s₀)
    (hone : (root.childrenNamed "relationships").length = 1) :
    ((∃ s, readRoot root = .ok s) ↔
      ∀ r ∈ relationElements root, LawfulRelation (tableElements root) r) ∧
    (∀ s, readRoot root = .ok s → Lists (tableElements root) s ∧ s.Bindings ∧
      Linked (tableElements root) (relationElements root) s) ∧
    (∀ e, readRoot root = .error e ↔ ∃ before r after,
      relationElements root = before ++ r :: after ∧
      (∀ q ∈ before, LawfulRelation (tableElements root) q) ∧
      Offends (tableElements root) r e) ∧
    ∀ (document : DocumentReader) text, document text = .ok root →
      readSchema document text = readRoot root := by
  obtain ⟨hlists, hunlinked⟩ := (judged_readSection root).of_eq_ok hsection
  obtain ⟨part, hpart⟩ := List.length_eq_one_iff.1 hone
  have hrelations : part.childrenNamed "relation" = relationElements root := by
    simp [relationElements, hpart]
  have hread : readRoot root = (relationElements root).foldlM addRelation s₀ := by
    rw [readRoot_eq, hsection, ← hrelations]
    change (onlyChild root "relationships" _ >>= _) = _
    rw [onlyChild, hpart]
    rfl
  have hjudged := judged_addRelations hlists (reachable_readSection hsection) hunlinked
    (relationElements root)
  rw [← hread] at hjudged
  refine ⟨?_, ?_, ?_, ?_⟩
  · rw [hjudged.exists_ok_iff, List.flatMap_eq_nil_iff]
    simp only [relationFaults_eq_nil]
  · intro s hs
    obtain ⟨hlists', hreach', hlinked⟩ := hjudged.of_eq_ok hs
    exact ⟨hlists', Schema.bindings_invariant.holds hreach', hlinked⟩
  · intro e
    rw [hjudged.error_iff, head?_flatMap_eq_some]
    simp only [relationFaults_eq_nil, offends_iff]
  · intro document text htext
    rw [readSchema, htext]
    rfl

def endElement (name table cardinality : String) (more : List Node) : Node :=
  .element name [{ name := "cardinality", value := cardinality }]
    (.element "tablename" [] [.text table] :: more)

/-- A relation from many fields of the child table to one of the parent table. -/
def relationElement (name child native parent foreign : String) : Node :=
  .element "relation" []
    [.element "name" [] [.text name], endElement "parent" parent "one" [],
      endElement "child" child "many"
        [.element "foreignkey" [{ name := "references", value := foreign }] [.text native]]]

def tableElement (name : String) (columns : List Node) : Node :=
  .element "table" [] [.element "name" [] [.text name], .element "fields" [] columns]

/-- Authors who have mentors, and books with an author, which is first said to be a book. -/
def shelf : Node :=
  .element "diagram" []
    [.element "tables" []
      [tableElement "Author" [columnElement "int" "id", columnElement "int" "mentor"],
        tableElement "Book" [columnElement "int" "id", columnElement "int" "author"]],
      .element "relationships" []
        [relationElement "series" "Book" "author" "Book" "id",
          relationElement "mentors" "Author" "mentor" "Author" "id",
          relationElement "writes" "Book" "author" "Author" "id"]]

theorem shelf_linked : ∃ s₀, readSection shelf = .ok s₀ ∧
    (shelf.childrenNamed "relationships").length = 1 ∧ ∃ s, readRoot shelf = .ok s ∧
      Linked (tableElements shelf) (relationElements shelf) s ∧
      (s.tableAt ⟨1⟩).related = [⟨1⟩, ⟨0⟩] ∧ (s.fieldAt ⟨3⟩).foreign = some ⟨0⟩ := by
  obtain ⟨s₀, hs₀⟩ := (judged_readSection shelf).exists_ok_iff.2 (by decide)
  have hone : (shelf.childrenNamed "relationships").length = 1 := by decide
  have hlawful : ∀ r ∈ relationElements shelf, LawfulRelation (tableElements shelf) r := by
    simp only [← relationFaults_eq_nil]
    decide
  obtain ⟨hiff, hall, -⟩ := readRoot_relations hs₀ hone
  obtain ⟨s, hs⟩ := hiff.2 hlawful
  refine ⟨s₀, hs₀, hone, s, hs, (hall s hs).2.2, ?_⟩
  have hcells : (readRoot shelf).toOption.map
      (fun s => ((s.tableAt ⟨1⟩).related, (s.fieldAt ⟨3⟩).foreign)) =
      some ([⟨1⟩, ⟨0⟩], some ⟨0⟩) := by
    decide +kernel
  rw [hs] at hcells
  exact Prod.mk.inj (Option.some.inj hcells)

end Schemata.XmlDiagram
