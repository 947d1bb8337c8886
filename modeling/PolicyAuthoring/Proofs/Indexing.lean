import PolicyAuthoring.Registry
import PolicyAuthoring.Proofs.Catalog
import PolicyAuthoring.Proofs.Compilation
import PolicyAuthoring.Proofs.Value.Guarded

/-!
# Indexes of recurring identifiers

Nothing keeps the author of a catalog file from using an identifier twice. Of the definitions with
an identifier the index of a catalog keeps the first, of the references with an identifier the index
of a directory keeps the last. Here both are compared with a scan of the list that was indexed, in
which identifiers may recur (`lookup_first_label_last`).

`FirstAfter` and `LastBefore` say which item of a list is meant by the first or the last one with a
property, by the items that stand on the other side of it.
-/

namespace PolicyAuthoring

/-! ## First and last -/

/-- An item of a list that is the first one with a property, and the items before it. -/
structure FirstAfter {α : Type} (p : α → Prop) (items earlier : List α) (a : α) : Prop where
  /-- The item stands right after the earlier ones. -/
  stands : ∃ later, items = earlier ++ a :: later
  /-- The item has the property. -/
  holds : p a
  /-- No earlier item has the property. -/
  none_earlier : ∀ b ∈ earlier, ¬ p b

/-- An item of a list that is the last one with a property, and the items after it. -/
structure LastBefore {α : Type} (p : α → Prop) (items : List α) (a : α) (later : List α) :
    Prop where
  /-- The item stands right before the later ones. -/
  stands : ∃ earlier, items = earlier ++ a :: later
  /-- The item has the property. -/
  holds : p a
  /-- No later item has the property. -/
  none_later : ∀ b ∈ later, ¬ p b

section Scans

variable {α : Type} {p q : α → Prop} {test : α → Bool} {items earlier later : List α} {a : α}

/-- A search for what passes a test finds the first item with the property that is tested. -/
theorem find?_eq_some_iff_firstAfter (htest : ∀ b ∈ items, test b = true ↔ p b) :
    items.find? test = some a ↔ ∃ earlier, FirstAfter p items earlier a := by
  rw [List.find?_eq_some_iff_append]
  constructor
  · rintro ⟨ha, earlier, later, rfl, hearlier⟩
    refine ⟨earlier, ⟨later, rfl⟩, (htest a (by simp)).mp ha, fun b hb hpb => ?_⟩
    have hfails := hearlier b hb
    rw [(htest b (List.mem_append_left _ hb)).mpr hpb] at hfails
    cases hfails
  · rintro ⟨earlier, ⟨later, rfl⟩, ha, hearlier⟩
    refine ⟨(htest a (by simp)).mpr ha, earlier, later, rfl, fun b hb => ?_⟩
    rw [Bool.not_eq_true', ← Bool.not_eq_true, htest b (List.mem_append_left _ hb)]
    exact hearlier b hb

/-- The last of the items that pass a test is the last item with the property that is tested. -/
theorem LastBefore.getLast?_filter (h : LastBefore p items a later)
    (htest : ∀ b ∈ items, test b = true ↔ p b) : (items.filter test).getLast? = some a := by
  obtain ⟨⟨earlier, rfl⟩, ha, hlater⟩ := h
  have hnone : later.filter test = [] := by
    rw [List.filter_eq_nil_iff]
    intro b hb
    rw [htest b (by simp [hb])]
    exact hlater b hb
  rw [List.filter_append, List.filter_cons_of_pos ((htest a (by simp)).mpr ha), hnone,
    List.getLast?_concat]

/-- What has a property of which another one follows does not come before the first item with the
other one. -/
theorem FirstAfter.exists_of_imp (h : FirstAfter p items earlier a) (hpq : ∀ b, p b → q b) :
    ∃ before b, FirstAfter q items before b ∧ before <+: earlier := by
  classical
  obtain ⟨⟨later, rfl⟩, ha, -⟩ := h
  -- The item has both properties, so a search that ends with it finds one with the other property.
  obtain ⟨b, hb⟩ : ∃ b, (earlier ++ [a]).find? (fun x => decide (q x)) = some b := by
    rw [← Option.isSome_iff_exists, List.find?_isSome]
    exact ⟨a, by simp, decide_eq_true (hpq a ha)⟩
  obtain ⟨before, ⟨rest, hsplit⟩, hqb, hbefore⟩ :=
    (find?_eq_some_iff_firstAfter fun x _ => decide_eq_true_iff).mp hb
  refine ⟨before, b, ⟨⟨rest ++ later, ?_⟩, hqb, hbefore⟩, ?_⟩
  · rw [← List.singleton_append, ← List.append_assoc, hsplit, List.append_assoc, List.cons_append]
  · have hprefix : before <+: earlier ++ [a] := ⟨b :: rest, hsplit.symm⟩
    have hlength := congrArg List.length hsplit
    rw [List.length_append, List.length_append, List.length_singleton, List.length_cons] at hlength
    exact List.prefix_of_prefix_length_le hprefix (List.prefix_append _ _) (by omega)

end Scans

/-! ## Catalogs -/

namespace Attribute

/-- An attribute is called by a key: its name equals the key or its identifier is the key. -/
def IsCalled (a : Attribute) (key : Value) : Prop := a.name.equals key = true ∨ a.id = key

/-- An attribute identified by a text answers to what it is called by. -/
theorem answersTo_iff_isCalled {a : Attribute} (htext : a.id.isText = true) (key : Value) :
    a.answersTo key = true ↔ a.IsCalled key := by
  rw [answersTo, Bool.or_eq_true, Value.equals_iff_of_isText htext, IsCalled]

/-- A value that can be a member of a set can be asked for as a category. -/
theorem checkCategory_of_hashable (a : Attribute) {category : Value}
    (hcategory : category.hashable = true) :
    a.checkCategory category = .ok (a.hasCategory category) := by
  cases category with
  | set members => cases hcategory
  | _ =>
    rw [checkCategory, Value.asKey_of_hashable hcategory]
    · rfl
    · intro members h
      cases h

end Attribute

namespace Catalog

variable {attributes earlier : List Attribute} {a b : Attribute} {key category : Value}

/-- Definitions make a catalog exactly if their identifiers can be keys of the index. -/
theorem guarded_ofAttributes (attributes : List Attribute) :
    Guarded (ofAttributes attributes) (∀ a ∈ attributes, a.id.hashable = true)
      ShapeFault.IsKindFault :=
  Guarded.bind_ok (Guarded.forM fun a _ => a.id.guarded_asKey.bind_ok)

/-- Definitions whose identifiers can be keys make a catalog. -/
theorem ofAttributes_eq_ok (h : ∀ a ∈ attributes, a.id.hashable = true) :
    ofAttributes attributes = .ok (ofList attributes) := by
  obtain ⟨c, hc⟩ := (guarded_ofAttributes attributes).succeeds h
  obtain ⟨_, hchecked, -⟩ := exists_of_bind_eq_ok hc
  rw [ofAttributes, hchecked]
  rfl

/-- A value that can be a key can be looked up. -/
theorem lookup_of_hashable (c : Catalog) (hkey : key.hashable = true) :
    c.lookup key = .ok (c.get? key) := by
  rw [lookup, Value.asKey_of_hashable hkey]
  rfl

/-- The definitions of a category that can be asked for are the ones that have it. -/
theorem checkedForCategory_of_hashable (c : Catalog) (hcategory : category.hashable = true) :
    c.checkedForCategory category = .ok (c.forCategory category) := by
  rw [checkedForCategory,
    filterM_eq_ok fun a _ => a.checkCategory_of_hashable hcategory]
  rfl

section TextIdentifiers

variable (htext : ∀ a ∈ attributes, a.id.isText = true)

include htext

/-- The index leads a key to what a scan for the identifier finds. -/
theorem get?_ofList (hkey : key.hashable = true) :
    (ofList attributes).get? key = attributes.find? fun a => a.id.same key :=
  lookup_index hkey fun a ha _ => Value.hashable_of_isText (htext a ha)

/-- The index leads a key to the first definition with the identifier. -/
theorem get?_eq_some_iff_firstAfter (hkey : key.hashable = true) :
    (ofList attributes).get? key = some a ↔
      ∃ earlier, FirstAfter (fun b => b.id = key) attributes earlier a := by
  rw [get?_ofList htext hkey]
  exact find?_eq_some_iff_firstAfter fun b hb => Value.same_iff_of_isText (htext b hb)

/-- The index contains a key exactly if it is an identifier. -/
theorem contains_iff (hkey : key.hashable = true) :
    (ofList attributes).contains key = true ↔ ∃ a ∈ attributes, a.id = key := by
  have hget : ((ofList attributes).get? key).isSome = (ofList attributes).contains key :=
    (Table.contains_eq_isSome _ key).symm
  rw [← hget, get?_ofList htext hkey, List.find?_isSome]
  refine exists_congr fun a => and_congr_right fun ha => ?_
  exact Value.same_iff_of_isText (htext a ha)

/-- A scan finds the first definition that is called by a key. -/
theorem find?_eq_some_iff_isCalled :
    (ofList attributes).find? key = some a ↔
      ∃ earlier, FirstAfter (fun b => b.IsCalled key) attributes earlier a :=
  find?_eq_some_iff_firstAfter fun b hb => b.answersTo_iff_isCalled (htext b hb) key

/-- A scan of the definitions of a category finds the first one of them that is called by a key. -/
theorem find?_forCategory_eq_some_iff :
    ((ofList attributes).forCategory category).find? key = some a ↔
      ∃ earlier, FirstAfter (fun b => b.hasCategory category = true ∧ b.IsCalled key)
        attributes earlier a := by
  have hscan : ((ofList attributes).forCategory category).find? key =
      attributes.find? fun b => decide (b.hasCategory category = true ∧ b.answersTo key = true) :=
    List.find?_filter
  rw [hscan]
  refine find?_eq_some_iff_firstAfter fun b hb => ?_
  rw [decide_eq_true_iff, b.answersTo_iff_isCalled (htext b hb) key]

/-- The index of a category leads an identifier to its first definition, if this has the
category. -/
theorem get?_forCategory (hkey : key.hashable = true)
    (h : FirstAfter (fun b => b.id = key) attributes earlier a)
    (ha : a.hasCategory category = true) :
    ((ofList attributes).forCategory category).get? key = (ofList attributes).get? key := by
  have hfound : (ofList attributes).get? key = some a :=
    (get?_eq_some_iff_firstAfter htext hkey).mpr ⟨earlier, h⟩
  have htext' : ∀ b ∈ attributes.filter (fun b => b.hasCategory category), b.id.isText = true :=
    fun b hb => htext b (List.mem_filter.mp hb).1
  rw [hfound]
  refine (get?_eq_some_iff_firstAfter htext' hkey).mpr ?_
  -- The definition stays the first one when some of the others are left out.
  obtain ⟨⟨later, rfl⟩, hid, hearlier⟩ := h
  refine ⟨earlier.filter fun b => b.hasCategory category,
    ⟨later.filter fun b => b.hasCategory category, ?_⟩, hid, ?_⟩
  · rw [List.filter_append, List.filter_cons, if_pos ha]
  · exact fun b hb => hearlier b (List.mem_filter.mp hb).1

end TextIdentifiers

end Catalog

/-! ## Directories -/

namespace Directory

variable {references others : Reference.Kind → List Reference} {kind : Reference.Kind}
  {key : Value}

/-- The directory of a list of references of each kind. -/
def ofReferences (references : Reference.Kind → List Reference) : Directory where
  subjects := index (references .subject)
  actions := index (references .action)
  resources := index (references .resource)
  additionalResources := index (references .additionalResource)

/-- The references of a kind are indexed apart from the others. -/
theorem table_ofReferences (references : Reference.Kind → List Reference)
    (kind : Reference.Kind) : (ofReferences references).table kind = index (references kind) := by
  cases kind <;> rfl

/-- References make an index exactly if their identifiers can be its keys. -/
theorem guarded_indexOf (references : List Reference) :
    Guarded (indexOf references) (∀ r ∈ references, r.id.hashable = true)
      ShapeFault.IsKindFault :=
  Guarded.bind_ok (Guarded.forM fun r _ => r.id.guarded_asKey.bind_ok)

/-- An index that is made of references is their index. -/
theorem eq_index_of_indexOf {references : List Reference} {table : Table Reference}
    (h : indexOf references = .ok table) : table = index references := by
  obtain ⟨_, -, h⟩ := exists_of_bind_eq_ok h
  exact (Except.ok.inj h).symm

/-- A directory that was read is that of the references that were read. -/
theorem exists_of_ofValue {v : Value} {d : Directory} (h : ofValue v = .ok d) :
    ∃ references, (∀ kind, referencesOf v kind = .ok (references kind)) ∧
      d = ofReferences references := by
  obtain ⟨subjects, hsubjects, h⟩ := exists_of_bind_eq_ok h
  obtain ⟨actions, hactions, h⟩ := exists_of_bind_eq_ok h
  obtain ⟨resources, hresources, h⟩ := exists_of_bind_eq_ok h
  obtain ⟨additionalResources, hadditional, h⟩ := exists_of_bind_eq_ok h
  obtain ⟨subjectTable, hsubjectTable, h⟩ := exists_of_bind_eq_ok h
  obtain ⟨actionTable, hactionTable, h⟩ := exists_of_bind_eq_ok h
  obtain ⟨resourceTable, hresourceTable, h⟩ := exists_of_bind_eq_ok h
  obtain ⟨additionalTable, hadditionalTable, h⟩ := exists_of_bind_eq_ok h
  obtain rfl := Except.ok.inj h
  rw [eq_index_of_indexOf hsubjectTable, eq_index_of_indexOf hactionTable,
    eq_index_of_indexOf hresourceTable, eq_index_of_indexOf hadditionalTable]
  refine ⟨fun kind => kind.casesOn subjects actions resources additionalResources,
    fun kind => ?_, rfl⟩
  cases kind <;> assumption

section TextIdentifiers

variable (htext : ∀ r ∈ references kind, r.id.isText = true) (hkey : key.hashable = true)

include htext hkey

/-- The index of a kind leads a key to the last of the references of that kind with the
identifier. -/
theorem get?_ofReferences :
    (ofReferences references).get? kind key =
      ((references kind).filter fun r => r.id.same key).getLast? := by
  have hentries : ∀ e ∈ (references kind).map fun r => (r.id, r), e.1.hashable = true := by
    intro e he
    obtain ⟨r, hr, rfl⟩ := List.mem_map.mp he
    exact Value.hashable_of_isText (htext r hr)
  rw [get?, table_ofReferences, index, Table.lookup_ofEntries hentries hkey, List.filter_map,
    List.getLast?_map, Option.map_map]
  exact congrFun Option.map_id _

/-- A key is spoken of as the last reference with the identifier says. -/
theorem labelOf_of_lastBefore {r : Reference} {later : List Reference}
    (h : LastBefore (fun e => e.id = key) (references kind) r later) :
    (ofReferences references).labelOf kind key = r.label := by
  rw [labelOf, get?_ofReferences htext hkey,
    h.getLast?_filter fun e he => Value.same_iff_of_isText (htext e he)]
  rfl

/-- A key that is the identifier of no reference of its kind is its own name. -/
theorem labelOf_of_forall_ne (h : ∀ e ∈ references kind, e.id ≠ key) :
    (ofReferences references).labelOf kind key = key := by
  have hnone : (references kind).filter (fun r => r.id.same key) = [] := by
    rw [List.filter_eq_nil_iff]
    intro r hr
    rw [Value.same_iff_of_isText (htext r hr)]
    exact h r hr
  rw [labelOf, get?_ofReferences htext hkey, hnone]
  rfl

/-- What counts as present is spoken of by something that counts as present. -/
theorem truthy_labelOf (h : key.truthy = true) :
    ((ofReferences references).labelOf kind key).truthy = true := by
  rw [labelOf, get?_ofReferences htext hkey]
  cases hlast : ((references kind).filter fun r => r.id.same key).getLast? with
  | none => exact h
  | some r =>
    -- The label of a reference falls back to the identifier, which is the key.
    obtain ⟨hr, hsame⟩ := List.mem_filter.mp (List.mem_of_getLast? hlast)
    have hid : r.id = key := (Value.same_iff_of_isText (htext r hr)).mp hsame
    show r.label.truthy = true
    rw [Reference.label, Value.truthy_orElse, Value.truthy_orElse, hid, h, Bool.or_true,
      Bool.or_true]

end TextIdentifiers

/-- How a key is spoken of depends on the references of its kind only. -/
theorem labelOf_congr (h : others kind = references kind) (key : Value) :
    (ofReferences others).labelOf kind key = (ofReferences references).labelOf kind key := by
  rw [labelOf, labelOf, get?, get?, table_ofReferences, table_ofReferences, h]

end Directory

/-! ## Both kinds of index -/

/-- Whatever recurs in the lists, a catalog and a directory answer as a scan does. Under a key the
catalog has the first definition with that identifier, and a search by name or identifier finds
nothing after it; within a category the search finds the first definition that is called by the key,
and the index still has the first definition if that has the category. The directory speaks of a key
as the last reference of the kind says, or as the key itself, whatever references of other kinds
there are, and never by nothing. -/
theorem lookup_first_label_last (attributes : List Attribute)
    (references : Reference.Kind → List Reference)
    (hattributes : ∀ a ∈ attributes, a.id.isText = true)
    (hreferences : ∀ kind, ∀ r ∈ references kind, r.id.isText = true)
    (key : Value) (hkey : key.hashable = true) :
    (∃ c, Catalog.ofAttributes attributes = .ok c ∧
      (∃ found, c.lookup key = .ok found ∧ ∀ a, found = some a ↔
        ∃ earlier, FirstAfter (fun b => b.id = key) attributes earlier a) ∧
      (c.contains key = true ↔ ∃ a ∈ attributes, a.id = key) ∧
      (∀ earlier a, FirstAfter (fun b => b.id = key) attributes earlier a →
        ∃ before b, c.find? key = some b ∧
          FirstAfter (fun b => b.IsCalled key) attributes before b ∧ before <+: earlier) ∧
      ∀ category : Value, category.hashable = true →
        ∃ sub, c.checkedForCategory category = .ok sub ∧
          (∀ b, sub.find? key = some b ↔ ∃ earlier,
            FirstAfter (fun b => b.hasCategory category = true ∧ b.IsCalled key)
              attributes earlier b) ∧
          ∀ earlier a, FirstAfter (fun b => b.id = key) attributes earlier a →
            a.hasCategory category = true → sub.lookup key = c.lookup key) ∧
    (∀ v d, Directory.ofValue v = .ok d → ∃ references,
      (∀ kind, Directory.referencesOf v kind = .ok (references kind)) ∧
        d = Directory.ofReferences references) ∧
    ∀ kind, ∃ name, (Directory.ofReferences references).label kind key = .ok name ∧
      (∀ r later, LastBefore (fun e => e.id = key) (references kind) r later → name = r.label) ∧
      ((∀ r ∈ references kind, r.id ≠ key) → name = key) ∧
      (∀ others : Reference.Kind → List Reference, others kind = references kind →
        (Directory.ofReferences others).label kind key = .ok name) ∧
      (key.truthy = true → name.truthy = true) := by
  refine ⟨⟨Catalog.ofList attributes, ?_, ?_, ?_, ?_, ?_⟩,
    fun v d => Directory.exists_of_ofValue, fun kind => ?_⟩
  · exact Catalog.ofAttributes_eq_ok fun a ha => Value.hashable_of_isText (hattributes a ha)
  · exact ⟨_, Catalog.lookup_of_hashable _ hkey,
      fun a => Catalog.get?_eq_some_iff_firstAfter hattributes hkey⟩
  · exact Catalog.contains_iff hattributes hkey
  · intro earlier a hfirst
    -- Who has the identifier is also called by it.
    obtain ⟨before, b, hb, hbefore⟩ :=
      hfirst.exists_of_imp (q := fun b => b.IsCalled key) fun b hb => Or.inr hb
    have hfound := (Catalog.find?_eq_some_iff_isCalled hattributes).mpr ⟨before, hb⟩
    exact ⟨before, b, hfound, hb, hbefore⟩
  · intro category hcategory
    refine ⟨_, Catalog.checkedForCategory_of_hashable _ hcategory,
      fun b => Catalog.find?_forCategory_eq_some_iff hattributes, fun earlier a hfirst ha => ?_⟩
    rw [Catalog.lookup_of_hashable _ hkey, Catalog.lookup_of_hashable _ hkey,
      Catalog.get?_forCategory hattributes hkey hfirst ha]
  · have hlabel (references : Reference.Kind → List Reference) :=
      (Directory.ofReferences references).label_of_hashable kind hkey
    have htext := hreferences kind
    refine ⟨_, hlabel references, ?_, ?_, ?_, ?_⟩
    · exact fun r later hlast => Directory.labelOf_of_lastBefore htext hkey hlast
    · exact Directory.labelOf_of_forall_ne htext hkey
    · intro others hothers
      rw [hlabel others, Directory.labelOf_congr hothers]
    · exact Directory.truthy_labelOf htext hkey

/-- The second of three definitions, and the first one identified as the level. -/
def levelDefinition : Attribute :=
  { id := .text "level", name := .text "grade", displayName := .text "Grade"
    categories := [.text "subject"] }

/-- Definitions of which the first has the level for its name and both others for an identifier. -/
def levelDefinitions : List Attribute :=
  [{ id := .text "secrecy", name := .text "level", displayName := .text "Secrecy"
     categories := [.text "resource"] },
    levelDefinition,
    { id := .text "level", name := .text "rank", displayName := .text "Rank"
      categories := [.text "subject"] }]

/-- The last of two subjects identified as the level. -/
def levelReference : Reference := { id := .text "level", name := .text "Senior level" }

/-- References to subjects, of which one identifier recurs, and to actions with that identifier. -/
def levelReferences : Reference.Kind → List Reference
  | .subject => [{ id := .text "level", displayName := .text "Level" }, levelReference]
  | .action => [{ id := .text "level", displayName := .text "Level off" }]
  | _ => []

/-- The level is the second definition, by its identifier, and among the definitions for subjects by
any search; and as a subject it is spoken of by the name of the last reference. -/
theorem lookup_first_label_last_level :
    (∃ c, Catalog.ofAttributes levelDefinitions = .ok c ∧
      c.lookup (.text "level") = .ok (some levelDefinition) ∧
      c.contains (.text "level") = true ∧
      ∃ sub, c.checkedForCategory (.text "subject") = .ok sub ∧
        sub.find? (.text "level") = some levelDefinition ∧
        sub.lookup (.text "level") = c.lookup (.text "level")) ∧
    (Directory.ofReferences levelReferences).label .subject (.text "level") =
      .ok (.text "Senior level") := by
  have hattributes : ∀ a ∈ levelDefinitions, a.id.isText = true := by
    simp [levelDefinitions, levelDefinition, Value.isText, Value.kind]
  have hreferences : ∀ kind, ∀ r ∈ levelReferences kind, r.id.isText = true := by
    intro kind
    cases kind <;> simp [levelReferences, levelReference, Value.isText, Value.kind]
  obtain ⟨⟨c, hc, ⟨found, hfound, hfirst⟩, hcontains, -, hcategory⟩, -, hlabel⟩ :=
    lookup_first_label_last levelDefinitions levelReferences hattributes hreferences
      (.text "level") rfl
  have hlevel : FirstAfter (fun b => b.id = .text "level") levelDefinitions
      (levelDefinitions.take 1) levelDefinition :=
    ⟨⟨levelDefinitions.drop 2, rfl⟩, rfl, by simp [levelDefinitions]⟩
  obtain ⟨sub, hsub, hfind, hlookup⟩ := hcategory (.text "subject") rfl
  obtain ⟨name, hname, hlast, -⟩ := hlabel .subject
  refine ⟨⟨c, hc, ?_, ?_, sub, hsub, ?_, ?_⟩, ?_⟩
  · rw [hfound, (hfirst levelDefinition).mpr ⟨_, hlevel⟩]
  · exact hcontains.mpr ⟨levelDefinition, by simp [levelDefinitions], rfl⟩
  · -- The first definition has the level for its name, but it is not for subjects.
    refine (hfind levelDefinition).mpr
      ⟨levelDefinitions.take 1, hlevel.stands, ⟨rfl, Or.inr rfl⟩, ?_⟩
    simp [levelDefinitions, Attribute.hasCategory]
  · exact hlookup _ _ hlevel rfl
  · rw [hname, hlast levelReference [] ⟨⟨(levelReferences .subject).take 1, rfl⟩, rfl, by simp⟩]
    rfl

end PolicyAuthoring
