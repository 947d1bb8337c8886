import PolicyAuthoring.Files
import PolicyAuthoring.Proofs.Indexing
import PolicyAuthoring.Proofs.Value.Fields
import PolicyAuthoring.Proofs.Yaml.Portable

/-!
# Loading catalogs

A file whose text is a YAML value either becomes a catalog, is refused with a fault of the file, or
ends in a fault of the value. The last should not happen to an author who made a slip in a catalog
file, and `loadCatalog_loadDirectory_iff` says exactly when it does: `Value.IsCatalog` and
`Value.IsDirectory` state what must be true of the fields of a mapping for its definitions and its
references to be read.

The conditions are about the shapes of five things: the lists, the identifiers, the older field for
a single category, the constraints and the values to choose from. Every other field may hold
anything.
-/

namespace PolicyAuthoring

/-! ## Definitions -/

/-- What constraints are made of: a mapping, whose values to choose from can be listed. -/
def Value.IsConstraints (v : Value) : Prop :=
  v.truthy = true → v.kind = .mapping ∧ (v.entry "enumValues").Listable

namespace Attribute

/-- The identifier that a catalog entry gives. -/
def givenId (entry : Value) : Value := (entry.entry "id").orElse (entry.entry "_id")

/-- What a catalog entry must be made of to be read: the older field for a category is looked at
only if the newer one holds neither a text nor a sequence nor a set. -/
structure IsReadable (entry : Value) : Prop where
  /-- If the older field is used for the category, it can be a member of a set. -/
  category : (entry.entry "categories").kind ∉ [.text, .list, .tuple, .set] →
    (entry.entry "category").truthy = true → (entry.entry "category").hashable = true
  /-- The constraints can be read. -/
  constraints : (entry.entry "constraints").IsConstraints

/-- Values can be the members of a set exactly if each of them can. -/
theorem guarded_distinct (vs : List Value) :
    Guarded (distinct vs) (∀ v ∈ vs, v.hashable = true) ShapeFault.IsKindFault := by
  induction vs with
  | nil => exact (Guarded.ok []).congr (by simp)
  | cons v vs ih =>
    refine (v.guarded_asKey.bind fun _ _ => ih.bind_ok).congr ?_
    rw [List.forall_mem_cons]

/-- The categories of an entry are texts that the newer field gives, or what the older field gives
if the newer one holds neither a text nor a sequence nor a set. -/
theorem entryCategories_cases (entries : Table Value) :
    let entry := Value.mapping entries
    ∃ categories, entryCategories entry = .ok categories ∧
      ((entry.entry "categories").kind ∈ [.text, .list, .tuple, .set] ∧
          (∀ c ∈ categories, c.isText = true) ∨
        (entry.entry "categories").kind ∉ [.text, .list, .tuple, .set] ∧
          categories = if (entry.entry "category").truthy then [entry.entry "category"] else []) := by
  intro entry
  simp only [entry, entryCategories, Value.field_mapping, ok_bind]
  cases (Value.mapping entries).entry "categories" with
  | text s => exact ⟨_, rfl, Or.inl ⟨by simp [Value.kind], by simp [Value.isText, Value.kind]⟩⟩
  | unpaired codes =>
    exact ⟨_, rfl, Or.inl ⟨by simp [Value.kind], by simp [Value.isText, Value.kind]⟩⟩
  | list items =>
    exact ⟨_, rfl, Or.inl ⟨by simp [Value.kind], fun _ hc => (List.mem_filter.mp hc).2⟩⟩
  | tuple items =>
    exact ⟨_, rfl, Or.inl ⟨by simp [Value.kind], fun _ hc => (List.mem_filter.mp hc).2⟩⟩
  | set items =>
    exact ⟨_, rfl, Or.inl ⟨by simp [Value.kind], fun _ hc => (List.mem_filter.mp hc).2⟩⟩
  | _ => exact ⟨_, rfl, Or.inr ⟨by simp [Value.kind], rfl⟩⟩

/-- The categories that an entry gives can be members of a set if the older field, where it is used,
can be one. -/
theorem hashable_of_mem_entryCategories {entries : Table Value} {categories : List Value}
    (h : entryCategories (.mapping entries) = .ok categories) :
    (∀ c ∈ categories, c.hashable = true) ↔
      (((Value.mapping entries).entry "categories").kind ∉ [.text, .list, .tuple, .set] →
        ((Value.mapping entries).entry "category").truthy = true →
        ((Value.mapping entries).entry "category").hashable = true) := by
  obtain ⟨given, hgiven, ⟨hnewer, htexts⟩ | ⟨hnone, hsingle⟩⟩ := entryCategories_cases entries
  · obtain rfl := Except.ok.inj (hgiven.symm.trans h)
    exact iff_of_true (fun c hc => Value.hashable_of_isText (htexts c hc)) (absurd hnewer)
  · obtain rfl := Except.ok.inj (hgiven.symm.trans h)
    rw [hsingle]
    -- Nothing newer is given, so the older field counts if it counts as present.
    cases ((Value.mapping entries).entry "category").truthy <;> simp [hnone]

/-- Constraints can be read exactly if they are made of what constraints are made of. -/
theorem guarded_constraints (v : Value) :
    Guarded (Constraints.ofValue v) v.IsConstraints ShapeFault.IsKindFault := by
  rw [Constraints.ofValue, Value.orElse]
  cases htruthy : v.truthy with
  | false =>
    -- Missing constraints are read as the empty mapping.
    exact (Guarded.ok _).congr (by simp [Value.IsConstraints, htruthy])
  | true =>
    cases v with
    | mapping entries =>
      simp only [if_true, Value.field_mapping, ok_bind]
      refine (Value.guarded_itemsIfPresent _).bind_ok.congr ?_
      simp [Value.IsConstraints, htruthy, Value.kind]
    | _ =>
      refine ⟨fun h => ?_, fun _ => ⟨_, rfl, rfl⟩⟩
      cases (h htruthy).1

/-- The identifier of a mapping is read. -/
theorem entryId_mapping (entries : Table Value) :
    entryId (.mapping entries) = .ok (givenId (.mapping entries)) := by
  rw [entryId, Value.field_mapping, Value.field_mapping, ok_bind, givenId, Value.orElse]
  split <;> rfl

/-- A definition is made by an entry whose identifier counts as present. -/
theorem isDefinition_iff (entry : Value) :
    Catalog.isDefinition entry = true ↔ (givenId entry).truthy = true := by
  rw [Catalog.isDefinition, Value.hasPresent_eq, Value.hasPresent_eq, givenId, Value.orElse]
  cases h : (entry.entry "id").truthy <;> simp [h]

/-- Only a mapping makes a definition. -/
theorem exists_mapping_of_isDefinition {entry : Value} (h : Catalog.isDefinition entry = true) :
    ∃ entries, entry = .mapping entries := by
  cases entry with
  | mapping entries => exact ⟨entries, rfl⟩
  | _ => cases h

/-- What has an identifier and a name can be defined. -/
theorem define_eq_ok {fields : Attribute} (hid : fields.id.truthy = true)
    (hname : fields.name.truthy = true) :
    define fields =
      .ok { fields with displayName := fields.displayName.orElse fields.name } := by
  rw [define, hid, hname]
  rfl

/-- The definition that an entry gives, with the categories and constraints that were read. -/
def given (entry : Value) (categories : List Value) (constraints : Constraints) : Attribute :=
  let name := (entry.entry "name").orElse (givenId entry)
  { id := givenId entry
    name
    displayName := ((entry.entry "displayName").orElse (.text "")).orElse name
    dataType := (entry.entry "dataType").orElse (.text "string")
    categories
    isMultiValue := .bool (flag (entry.entry "isMultiValue"))
    isRequired := .bool (flag (entry.entry "isRequired"))
    constraints }

/-- A definition is read by reading its categories and its constraints. -/
theorem ofEntry_eq {entry : Value} (h : Catalog.isDefinition entry = true) :
    ofEntry entry = do
      let categories ← distinct (← entryCategories entry)
      let constraints ← Constraints.ofValue (entry.entry "constraints")
      return given entry categories constraints := by
  have hid := (isDefinition_iff entry).mp h
  obtain ⟨entries, rfl⟩ := exists_mapping_of_isDefinition h
  -- The identifier stands in for a name that is missing, so a definition has both.
  have hname : (((Value.mapping entries).entry "name").orElse
      (givenId (.mapping entries))).truthy = true := by
    rw [Value.truthy_orElse, hid, Bool.or_true]
  have hdefine (categories : List Value) (constraints : Constraints) :
      define { given (.mapping entries) categories constraints with
        displayName := ((Value.mapping entries).entry "displayName").orElse (.text "") } =
        .ok (given (.mapping entries) categories constraints) := define_eq_ok hid hname
  simp only [given] at hdefine
  simp only [ofEntry, entryId_mapping, Value.field_mapping, ok_bind, hdefine]
  rfl

/-- A definition can be read exactly if its entry is made of what it must be made of. -/
theorem guarded_ofEntry {entry : Value} (h : Catalog.isDefinition entry = true) :
    Guarded (ofEntry entry) (IsReadable entry) ShapeFault.IsKindFault := by
  rw [ofEntry_eq h]
  obtain ⟨entries, rfl⟩ := exists_mapping_of_isDefinition h
  obtain ⟨categories, hcategories, -⟩ := entryCategories_cases entries
  rw [hcategories, ok_bind]
  refine (((guarded_distinct categories).congr (hashable_of_mem_entryCategories hcategories)).bind
    fun _ _ => (guarded_constraints _).bind_ok).congr ?_
  exact ⟨fun h => ⟨h.1, h.2⟩, fun h => ⟨h.category, h.constraints⟩⟩

/-- What is read from an entry is the definition that the entry gives. -/
theorem exists_of_ofEntry {entry : Value} {a : Attribute} (h : Catalog.isDefinition entry = true)
    (ha : ofEntry entry = .ok a) :
    (∃ categories, entryCategories entry = .ok categories ∧
        distinct categories = .ok a.categories) ∧
      Constraints.ofValue (entry.entry "constraints") = .ok a.constraints ∧
      a = given entry a.categories a.constraints := by
  rw [ofEntry_eq h] at ha
  obtain ⟨categories, hcategories, ha⟩ := exists_of_bind_eq_ok ha
  obtain ⟨members, hmembers, ha⟩ := exists_of_bind_eq_ok ha
  obtain ⟨constraints, hconstraints, ha⟩ := exists_of_bind_eq_ok ha
  obtain rfl := Except.ok.inj ha
  exact ⟨⟨categories, hcategories, hmembers⟩, hconstraints, rfl⟩

/-- A definition has the identifier that its entry gives. -/
theorem id_of_ofEntry {entry : Value} {a : Attribute} (h : Catalog.isDefinition entry = true)
    (ha : ofEntry entry = .ok a) : a.id = givenId entry := by
  obtain ⟨-, -, hgiven⟩ := exists_of_ofEntry h ha
  rw [hgiven]
  rfl

end Attribute

namespace Catalog

/-- Reading catalog entries fails, if it fails, with a fault of a value. -/
theorem guarded_attributesOfEntries (index : Nat) (entries : List Value) :
    Guarded (attributesOfEntries index entries)
      (∀ entry ∈ entries, isDefinition entry = true → Attribute.IsReadable entry)
      fun fault => ∃ cause, fault = .shape cause := by
  induction entries generalizing index with
  | nil => exact (Guarded.ok []).congr (by simp)
  | cons entry rest ih =>
    rw [attributesOfEntries]
    cases hdefinition : isDefinition entry with
    | false =>
      rw [if_neg Bool.false_ne_true]
      exact (ih (index + 1)).congr (by simp [hdefinition])
    | true =>
      rw [if_pos rfl]
      have hentry := Attribute.guarded_ofEntry hdefinition
      by_cases hreadable : Attribute.IsReadable entry
      · obtain ⟨a, ha⟩ := hentry.succeeds hreadable
        rw [ha]
        exact (ih (index + 1)).bind_ok.congr (by simp [hdefinition, hreadable])
      · obtain ⟨cause, hcause, hkind⟩ := hentry.fails hreadable
        rw [hcause]
        refine ⟨fun h => absurd (h entry (List.mem_cons_self ..) hdefinition) hreadable,
          fun _ => ?_⟩
        exact ⟨.shape cause, by simp [hkind], cause, rfl⟩

/-- The attributes of catalog entries are those that the definitions among them give, in order. -/
theorem forall₂_attributesOfEntries {index : Nat} {entries : List Value}
    {attributes : List Attribute} (h : attributesOfEntries index entries = .ok attributes) :
    List.Forall₂ (fun entry a => isDefinition entry = true ∧ Attribute.ofEntry entry = .ok a)
      (entries.filter isDefinition) attributes := by
  induction entries generalizing index attributes with
  | nil =>
    obtain rfl := Except.ok.inj h
    exact .nil
  | cons entry rest ih =>
    rw [attributesOfEntries] at h
    cases hdefinition : isDefinition entry with
    | false =>
      rw [hdefinition, if_neg Bool.false_ne_true] at h
      rw [List.filter_cons, hdefinition, if_neg Bool.false_ne_true]
      exact ih h
    | true =>
      rw [hdefinition, if_pos rfl] at h
      rw [List.filter_cons, hdefinition, if_pos rfl]
      cases ha : Attribute.ofEntry entry with
      | error cause =>
        rw [ha] at h
        cases h
      | ok a =>
        rw [ha] at h
        obtain ⟨others, hothers, h⟩ := exists_of_bind_eq_ok h
        obtain rfl := Except.ok.inj h
        exact .cons ⟨hdefinition, ha⟩ (ih hothers)

/-- The attributes of catalog entries have the identifiers that the definitions among them give. -/
theorem ids_of_attributesOfEntries {index : Nat} {entries : List Value}
    {attributes : List Attribute} (h : attributesOfEntries index entries = .ok attributes) :
    attributes.map Attribute.id = (entries.filter isDefinition).map Attribute.givenId := by
  have hread := forall₂_attributesOfEntries h
  clear h
  generalize entries.filter isDefinition = definitions at hread
  induction hread with
  | nil => rfl
  | cons ha _ ih => rw [List.map_cons, List.map_cons, ih, Attribute.id_of_ofEntry ha.1 ha.2]

end Catalog

/-- What a catalog is made of, as far as its definitions go: a list whose definitions can be read
and have identifiers that can be keys. -/
structure Value.IsCatalog (v : Value) : Prop where
  /-- The attributes can be listed. -/
  attributes : (v.entry "attributes").Listable
  /-- Every definition among them can be read. -/
  readable : ∀ entry ∈ (v.entry "attributes").members, Catalog.isDefinition entry = true →
    Attribute.IsReadable entry
  /-- Every definition among them has an identifier that can be a key. -/
  id : ∀ entry ∈ (v.entry "attributes").members, Catalog.isDefinition entry = true →
    (Attribute.givenId entry).hashable = true

/-- A mapping is read as a catalog exactly if it is made of what a catalog is made of. -/
theorem Catalog.guarded_ofValue (entries : Table Value) :
    Guarded (ofValue (.mapping entries)) (Value.mapping entries).IsCatalog
      fun fault => ∃ cause, fault = .shape cause := by
  -- The index is made after all definitions have been read, of the identifiers that they give.
  have hids {attributes : List Attribute}
      (h : attributesOfEntries 0 ((Value.mapping entries).entry "attributes").members =
        .ok attributes) :
      (∀ a ∈ attributes, a.id.hashable = true) ↔
        ∀ entry ∈ ((Value.mapping entries).entry "attributes").members,
          isDefinition entry = true → (Attribute.givenId entry).hashable = true := by
    calc (∀ a ∈ attributes, a.id.hashable = true)
        ↔ ∀ id ∈ attributes.map Attribute.id, id.hashable = true := by simp
      _ ↔ _ := by
        rw [ids_of_attributesOfEntries h]
        simp only [List.forall_mem_map, List.mem_filter, and_imp]
  refine ((Value.guarded_itemsIfPresent _).lift.bind_of_eq
    (fun h => liftM_eq_ok_iff.mpr (Value.itemsIfPresent_eq h))
    ((guarded_attributesOfEntries 0 _).bind fun attributes hattributes =>
      (guarded_ofAttributes attributes).lift.congr (hids hattributes))).congr ?_
  exact ⟨fun h => ⟨h.1, h.2.1, h.2.2⟩, fun h => ⟨h.attributes, h.readable, h.id⟩⟩

/-! ## References -/

/-- What a catalog is made of, as far as its references go: each kind of reference is listed, and
the identifiers of the references can be keys. -/
structure Value.IsDirectory (v : Value) : Prop where
  /-- The references of each kind can be listed. -/
  listable : ∀ kind : Reference.Kind, (v.entry kind.field).Listable
  /-- Every reference has an identifier that can be a key. -/
  id : ∀ kind : Reference.Kind, ∀ entry ∈ (v.entry kind.field).members,
    entry.hasPresent "id" = true → (entry.entry "id").hashable = true

/-- The reference that an entry gives. -/
def Reference.given (entry : Value) : Reference where
  id := entry.entry "id"
  name := (entry.entry "name").orElse (.text "")
  displayName := (entry.entry "displayName").orElse (.text "")

/-- An entry with an identifier is read as a reference. -/
theorem Reference.ofValue_eq_given {entry : Value} (h : entry.hasPresent "id" = true) :
    ofValue entry = .ok (given entry) := by
  have hid := h
  rw [Value.hasPresent_eq] at hid
  obtain ⟨entries, rfl⟩ := Value.exists_mapping_of_truthy_entry hid
  rw [ofValue, Value.requiredField]
  rw [Value.entry] at hid
  cases hfound : Table.lookup entries (.text "id") with
  | none =>
    rw [hfound] at hid
    cases hid
  | some id =>
    simp only [ok_bind, Value.field_mapping, given, Value.entry, hfound]
    rfl

namespace Directory

variable {entries : Table Value} {kind : Reference.Kind}

/-- The references of a kind, if they are listed. -/
theorem referencesOf_eq (h : ((Value.mapping entries).entry kind.field).Listable) :
    referencesOf (.mapping entries) kind =
      .ok ((((Value.mapping entries).entry kind.field).members.filter fun entry =>
        entry.hasPresent "id").map Reference.given) := by
  rw [referencesOf, Value.field_mapping, ok_bind, Value.itemsIfPresent_eq h, ok_bind]
  exact mapM_eq_ok fun entry hentry => Reference.ofValue_eq_given (List.mem_filter.mp hentry).2

/-- The references of a kind can be read exactly if they are listed. -/
theorem guarded_referencesOf (entries : Table Value) (kind : Reference.Kind) :
    Guarded (referencesOf (.mapping entries) kind)
      ((Value.mapping entries).entry kind.field).Listable ShapeFault.IsKindFault := by
  refine ⟨fun h => ⟨_, referencesOf_eq h⟩, fun h => ?_⟩
  obtain ⟨fault, hfault, hkind⟩ := (Value.guarded_itemsIfPresent _).fails h
  refine ⟨fault, ?_, hkind⟩
  rw [referencesOf, Value.field_mapping, ok_bind, hfault]
  rfl

/-- The references of a kind make an index exactly if every one of them has an identifier that can
be a key. -/
theorem guarded_indexOf_given (entries : Table Value) (kind : Reference.Kind) :
    Guarded (indexOf ((((Value.mapping entries).entry kind.field).members.filter fun entry =>
        entry.hasPresent "id").map Reference.given))
      (∀ entry ∈ ((Value.mapping entries).entry kind.field).members,
        entry.hasPresent "id" = true → (entry.entry "id").hashable = true)
      ShapeFault.IsKindFault := by
  refine (guarded_indexOf _).congr ?_
  simp only [List.forall_mem_map, List.mem_filter, and_imp, Reference.given]

/-- A mapping is read as a directory exactly if it is made of what a directory is made of. -/
theorem guarded_ofValue (entries : Table Value) :
    Guarded (ofValue (.mapping entries)) (Value.mapping entries).IsDirectory
      ShapeFault.IsKindFault := by
  have hlist (kind : Reference.Kind) := guarded_referencesOf entries kind
  have hindex (kind : Reference.Kind) := guarded_indexOf_given entries kind
  rw [ofValue]
  -- The references of all kinds are listed before the first index is made.
  refine ((hlist .subject).bind_of_eq referencesOf_eq <|
    (hlist .action).bind_of_eq referencesOf_eq <|
    (hlist .resource).bind_of_eq referencesOf_eq <|
    (hlist .additionalResource).bind_of_eq referencesOf_eq <|
    (hindex .subject).bind fun _ _ => (hindex .action).bind fun _ _ =>
    (hindex .resource).bind fun _ _ => (hindex .additionalResource).bind_ok).congr ?_
  constructor
  · rintro ⟨hs, ha, hr, hd, hs', ha', hr', hd'⟩
    exact ⟨fun kind => by cases kind <;> assumption, fun kind => by cases kind <;> assumption⟩
  · rintro ⟨hlistable, hid⟩
    exact ⟨hlistable _, hlistable _, hlistable _, hlistable _, hid _, hid _, hid _, hid _⟩

end Directory

/-! ## Files -/

/-- A loader that gives a result or refuses the file. -/
def LoadsOrRefuses {α : Type} (x : Except Fault α) : Prop :=
  (∃ a, x = .ok a) ∨ ∃ cause, x = .error (.load cause)

variable {files : Files} {path text : String} {v : Value}

/-- What has a result exactly under a condition, and a fault of a value otherwise, loads or refuses
exactly under the condition. -/
theorem Guarded.loadsOrRefuses_iff {α : Type} {x : Except Fault α} {p : Prop}
    (h : Guarded x p fun fault => ∃ cause, fault = .shape cause) : LoadsOrRefuses x ↔ p := by
  refine ⟨?_, fun hp => Or.inl (h.succeeds hp)⟩
  rintro (hok | ⟨cause, hcause⟩)
  · exact h.exists_ok_iff.mp hok
  · refine Classical.byContradiction fun hp => ?_
    obtain ⟨fault, hfault, shape, rfl⟩ := h.fails hp
    rw [hcause] at hfault
    cases hfault

/-- A value without entries is made of what a catalog and a directory are made of. -/
theorem Value.isCatalog_isDirectory_of_entry_eq_null (h : ∀ name, v.entry name = .null) :
    v.IsCatalog ∧ v.IsDirectory := by
  constructor <;> constructor <;>
    simp [h, Value.Listable, Value.members, Value.items?, Value.truthy]

/-- A file whose text is a value is loaded as a catalog or refused exactly if the value is made of
what a catalog is made of, and loaded as a directory or refused exactly if it is made of what a
directory is made of. Otherwise loading ends in a fault of the value. -/
theorem loadCatalog_loadDirectory_iff (hfile : files.lookup path = some text)
    (hread : Yaml.read text = .ok v) :
    (LoadsOrRefuses (files.loadCatalog path) ↔ v.IsCatalog) ∧
      (LoadsOrRefuses (files.loadDirectory path) ↔ v.IsDirectory) := by
  rw [Files.loadCatalog, Files.loadDirectory, Files.readMapping, hfile, Option.map_some, hread]
  have hmapping (entries : Table Value) :
      (LoadsOrRefuses (Catalog.ofValue (.mapping entries)) ↔ (Value.mapping entries).IsCatalog) ∧
      (LoadsOrRefuses (liftM (Directory.ofValue (.mapping entries)) : Except Fault Directory) ↔
        (Value.mapping entries).IsDirectory) :=
    ⟨(Catalog.guarded_ofValue entries).loadsOrRefuses_iff,
      (Directory.guarded_ofValue entries).lift.loadsOrRefuses_iff⟩
  cases v with
  | mapping entries => exact hmapping entries
  | null =>
    -- An empty file is the empty mapping, and neither has any entry.
    have hempty := Value.isCatalog_isDirectory_of_entry_eq_null (v := .mapping []) fun _ => rfl
    have hnull := Value.isCatalog_isDirectory_of_entry_eq_null (v := .null) fun _ => rfl
    exact ⟨iff_of_true ((hmapping []).1.mpr hempty.1) hnull.1,
      iff_of_true ((hmapping []).2.mpr hempty.2) hnull.2⟩
  | _ =>
    -- A file that is no mapping is refused before its fields are looked at.
    refine ⟨iff_of_true (Or.inr ⟨_, rfl⟩) ?_, iff_of_true (Or.inr ⟨_, rfl⟩) ?_⟩
    · exact (Value.isCatalog_isDirectory_of_entry_eq_null fun _ => rfl).1
    · exact (Value.isCatalog_isDirectory_of_entry_eq_null fun _ => rfl).2

/-- A catalog that defines levels, but gives a number in place of its subjects. -/
def countedSubjects : Value :=
  .record ["attributes", "subjects"] [.list [.record ["id"] [.text "level"]], .int 5]

/-- The JSON text of the catalog with counted subjects. -/
def countedSubjectsText : String :=
  "\x7b\n  \"attributes\": [\n    \x7b\n      \"id\": \"level\"\n    \x7d\n  ],\n" ++
    "  \"subjects\": 5\n\x7d"

/-- The file of the catalog with counted subjects. -/
def countedSubjectsFile : Files := [("policies.json", countedSubjectsText ++ "\n")]

/-- The file holds the catalog. -/
theorem read_countedSubjects :
    Yaml.read (countedSubjectsText ++ "\n") = .ok countedSubjects := by
  refine Value.IsJson.read_write (.record _ (by decide) ?_) (by decide +kernel) (by rfl)
  rw [List.forall_mem_cons, List.forall_mem_singleton]
  refine ⟨.list _ fun v hv => ?_, .int 5⟩
  cases List.mem_singleton.mp hv
  exact .record _ (by decide) (List.forall_mem_singleton.mpr (.text "level"))

/-- A number in place of the subjects does not keep the definitions from being loaded, but the
references are neither loaded nor refused. -/
theorem loadCatalog_loadDirectory_countedSubjects :
    LoadsOrRefuses (countedSubjectsFile.loadCatalog "policies.json") ∧
      ¬ LoadsOrRefuses (countedSubjectsFile.loadDirectory "policies.json") := by
  have hfile : countedSubjectsFile.lookup "policies.json" = some (countedSubjectsText ++ "\n") :=
    rfl
  obtain ⟨hcatalog, hdirectory⟩ := loadCatalog_loadDirectory_iff hfile read_countedSubjects
  refine ⟨hcatalog.mpr ⟨fun _ => rfl, fun entry hentry _ => ?_, fun entry hentry _ => ?_⟩, ?_⟩
  · cases List.mem_singleton.mp hentry
    exact ⟨fun _ htruthy => (nomatch htruthy), fun htruthy => (nomatch htruthy)⟩
  · cases List.mem_singleton.mp hentry
    rfl
  · intro h
    cases (hdirectory.mp h).listable .subject rfl

/-- Not every catalog file whose text is a value is loaded or refused: a number in place of the
attributes is neither. -/
theorem not_forall_loadsOrRefuses_catalog :
    ¬ ∀ (files : Files) (path text : String) (v : Value), files.lookup path = some text →
      Yaml.read text = .ok v →
      LoadsOrRefuses (files.loadCatalog path) ∧ LoadsOrRefuses (files.loadDirectory path) := by
  intro h
  let text := "\x7b\n  \"attributes\": 5\n\x7d"
  have hread : Yaml.read (text ++ "\n") = .ok (.record ["attributes"] [.int 5]) := by
    refine Value.IsJson.read_write (.record _ (by decide) ?_) (by decide +kernel) (by rfl)
    exact List.forall_mem_singleton.mpr (.int 5)
  have hfault : Files.loadCatalog [("policies.json", text ++ "\n")] "policies.json" =
      .error (.shape (.notIterable .int)) := by
    rw [Files.loadCatalog, Files.readMapping, List.lookup_cons_self, Option.map_some, hread]
    rfl
  obtain ⟨hloads, -⟩ := h [("policies.json", text ++ "\n")] "policies.json" _ _ rfl hread
  rw [hfault] at hloads
  obtain ⟨_, hok⟩ | ⟨_, hrefused⟩ := hloads
  · cases hok
  · cases hrefused

end PolicyAuthoring
