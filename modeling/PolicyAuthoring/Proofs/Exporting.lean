import PolicyAuthoring.Proofs.Loading
import Mathlib.Data.List.Forall2

/-!
# Exporting catalogs

A catalog that was read can be written as a mapping again, definition by definition, and reading
that mapping gives the same definitions back (`ofValue_exported`). Every fallback of the reader has
been taken by then: identifiers, names and display names are there, the flags are truth values, and
the categories are texts, each once (`Attribute.IsRead`). Only the order in which the categories of
a definition are listed may change, since an export sorts them, and no answer of a catalog depends
on it (`Catalog.Alike`).

The older field for a single category says the same as the newer one with that category, once or
repeated (`Attribute.ofEntry_of_olderField`).
-/

namespace PolicyAuthoring

/-! ## Constraints -/

namespace Constraints

/-- The demands of constraints under the names of their fields. -/
def demands (c : Constraints) : List (String × Value) :=
  [("enumValues", if c.enumValues.isEmpty then .null else .list c.enumValues),
    ("minValue", c.minValue), ("maxValue", c.maxValue), ("pattern", c.pattern),
    ("minLength", c.minLength), ("maxLength", c.maxLength)]

/-- Constraints are written demand by demand. -/
theorem toValue_eq_demands (c : Constraints) :
    c.toValue = .mapping (c.demands.flatMap fun d => demand d.1 d.2) := by
  simp [toValue, demands]

/-- A demand is written as one entry, unless it is not made. -/
theorem demand_eq (name : String) (v : Value) :
    v = .null ∧ demand name v = [] ∨ demand name v = [(.text name, v)] := by
  cases v with
  | null => exact Or.inl ⟨rfl, rfl⟩
  | _ => exact Or.inr rfl

/-- The entry of a demand comes first if the demand is made, and is null if it is not. -/
theorem entry_demand_self {name : String} {v : Value} {rest : Table Value}
    (hrest : (Value.mapping rest).entry name = .null) :
    (Value.mapping (demand name v ++ rest)).entry name = v := by
  rcases demand_eq name v with ⟨rfl, h⟩ | h
  · rw [h, List.nil_append, hrest]
  · rw [h, List.singleton_append, Value.entry, Table.lookup_cons, if_pos (Value.same_self _)]
    rfl

/-- A demand hides no entry of another name. -/
theorem entry_demand_of_ne {name other : String} {v : Value} {rest : Table Value}
    (hne : other ≠ name) :
    (Value.mapping (demand other v ++ rest)).entry name = (Value.mapping rest).entry name := by
  rcases demand_eq other v with ⟨-, h⟩ | h
  · rw [h, List.nil_append]
  · have hkey : ¬ (Value.text other).same (.text name) = true := by simpa using hne
    rw [h, List.singleton_append, Value.entry, Table.lookup_cons, if_neg hkey]
    rfl

/-- Under a name that no demand has stands nothing. -/
theorem entry_demands_of_notMem {demands : List (String × Value)} {name : String}
    (hname : name ∉ demands.map Prod.fst) :
    (Value.mapping (demands.flatMap fun d => demand d.1 d.2)).entry name = .null := by
  induction demands with
  | nil => rfl
  | cons first rest ih =>
    rw [List.map_cons, List.mem_cons, not_or] at hname
    rw [List.flatMap_cons, entry_demand_of_ne (Ne.symm hname.1), ih hname.2]

/-- Under the name of every demand stands what is demanded. -/
theorem entry_demands {demands : List (String × Value)} (hnames : (demands.map Prod.fst).Nodup)
    {d : String × Value} (hd : d ∈ demands) :
    (Value.mapping (demands.flatMap fun d => demand d.1 d.2)).entry d.1 = d.2 := by
  induction demands with
  | nil => simp at hd
  | cons first rest ih =>
    rw [List.map_cons, List.nodup_cons] at hnames
    rw [List.flatMap_cons]
    rcases List.mem_cons.mp hd with rfl | hd
    · -- No other demand has the name of the first one.
      exact entry_demand_self (entry_demands_of_notMem hnames.1)
    · have hne : first.1 ≠ d.1 := by
        rintro heq
        exact hnames.1 (heq ▸ List.mem_map_of_mem hd)
      rw [entry_demand_of_ne hne, ih hnames.2 hd]

/-- Constraints that were written are read again. -/
theorem ofValue_toValue (c : Constraints) : ofValue c.toValue = .ok c := by
  have hentry (d : String × Value) (hd : d ∈ c.demands) : c.toValue.entry d.1 = d.2 := by
    rw [toValue_eq_demands]
    exact entry_demands (by simp [demands]) hd
  -- Constraints without demands are written as the empty mapping, which counts as missing.
  have hmapping : (c.toValue.orElse (.mapping [])).kind = .mapping :=
    Value.kind_orElse_mapping_iff.mpr fun _ => rfl
  have hfield (d : String × Value) (hd : d ∈ c.demands) :
      (c.toValue.orElse (.mapping [])).field d.1 = .ok d.2 := by
    rw [Value.field_of_kind hmapping, Value.entry_orElse_mapping, hentry d hd]
  have hchoices : (if c.enumValues.isEmpty then Value.null
      else .list c.enumValues).itemsIfPresent = .ok c.enumValues := by
    cases hvalues : c.enumValues <;> rfl
  have henum := hfield ("enumValues", _) List.mem_cons_self
  have hrest (d : String × Value) (hd : d ∈ c.demands.tail) := hfield d (List.mem_of_mem_tail hd)
  simp only [demands, List.tail_cons, List.forall_mem_cons] at hrest
  obtain ⟨hminValue, hmaxValue, hpattern, hminLength, hmaxLength, -⟩ := hrest
  rw [ofValue]
  simp only [henum, hminValue, hmaxValue, hpattern, hminLength, hmaxLength, ok_bind, hchoices]
  rfl

end Constraints

/-! ## Categories -/

namespace Attribute

/-- The members of a set are among the values it was made of. -/
theorem mem_of_distinct {vs members : List Value} (h : distinct vs = .ok members) :
    ∀ v ∈ members, v ∈ vs := by
  induction vs generalizing members with
  | nil => simp_all [distinct]
  | cons v vs ih =>
    obtain ⟨member, hmember, h⟩ := exists_of_bind_eq_ok h
    obtain ⟨rest, hrest, h⟩ := exists_of_bind_eq_ok h
    rw [Value.asKey_of_hashable (Value.hashable_of_asKey hmember), Except.ok.injEq] at hmember
    obtain rfl := (Except.ok.inj h).symm
    intro w hw
    rcases List.mem_cons.mp hw with rfl | hw
    · exact hmember ▸ List.mem_cons_self
    · exact List.mem_cons_of_mem _ (ih hrest w (List.mem_filter.mp hw).1)

/-- A set of texts has each of them once. -/
theorem nodup_of_distinct {vs members : List Value} (htext : ∀ v ∈ vs, v.isText = true)
    (h : distinct vs = .ok members) : members.Nodup := by
  induction vs generalizing members with
  | nil => simp_all [distinct]
  | cons v vs ih =>
    rw [List.forall_mem_cons] at htext
    obtain ⟨member, hmember, h⟩ := exists_of_bind_eq_ok h
    obtain ⟨rest, hrest, h⟩ := exists_of_bind_eq_ok h
    rw [Value.asKey_of_hashable (Value.hashable_of_asKey hmember), Except.ok.injEq] at hmember
    obtain rfl := (Except.ok.inj h).symm
    subst hmember
    refine List.nodup_cons.mpr ⟨?_, (ih htext.2 hrest).filter _⟩
    simp [Value.same_self]

/-- Texts that differ from each other are the members of a set as they are. -/
theorem distinct_eq_self {vs : List Value} (htext : ∀ v ∈ vs, v.isText = true)
    (hnodup : vs.Nodup) : distinct vs = .ok vs := by
  induction vs with
  | nil => rfl
  | cons v vs ih =>
    rw [List.forall_mem_cons] at htext
    rw [List.nodup_cons] at hnodup
    have hfilter : vs.filter (fun w => !v.same w) = vs := by
      rw [List.filter_eq_self]
      intro w hw
      rw [Bool.not_eq_true', ← Bool.not_eq_true, Value.same_iff_of_isText htext.1]
      rintro rfl
      exact hnodup.1 hw
    rw [distinct, Value.asKey_of_hashable (Value.hashable_of_isText htext.1), ok_bind,
      ih htext.2 hnodup.2, ok_bind, hfilter]
    rfl

/-- A text that is repeated makes a set of one member. -/
theorem distinct_replicate {v : Value} (htext : v.isText = true) (n : Nat) :
    distinct (List.replicate (n + 1) v) = .ok [v] := by
  induction n with
  | zero =>
    exact distinct_eq_self (by simpa using htext) (List.nodup_singleton v)
  | succ n ih =>
    rw [List.replicate_succ, distinct, Value.asKey_of_hashable (Value.hashable_of_isText htext),
      ok_bind, ih, ok_bind]
    simp [Value.same_self]
    rfl

/-- Texts have an order. -/
theorem exists_categoryLt {v w : Value} (hv : v.isText = true) (hw : w.isText = true) :
    ∃ b, categoryLt v w = .ok b := by
  rcases Value.isText_iff.mp hv with ⟨s, rfl⟩ | ⟨codes, rfl⟩ <;>
    rcases Value.isText_iff.mp hw with ⟨t, rfl⟩ | ⟨others, rfl⟩ <;>
    exact ⟨_, rfl⟩

/-- A text can be put into its place among texts. -/
theorem exists_insertCategory {v : Value} {sorted : List Value} (hv : v.isText = true)
    (hsorted : ∀ w ∈ sorted, w.isText = true) :
    ∃ inserted, insertCategory v sorted = .ok inserted ∧ inserted.Perm (v :: sorted) := by
  induction sorted with
  | nil => exact ⟨[v], rfl, List.Perm.refl _⟩
  | cons w rest ih =>
    rw [List.forall_mem_cons] at hsorted
    obtain ⟨inserted, hinserted, hperm⟩ := ih hsorted.2
    obtain ⟨b, hb⟩ := exists_categoryLt hv hsorted.1
    rw [insertCategory, hb, ok_bind]
    cases b with
    | true => exact ⟨v :: w :: rest, rfl, List.Perm.refl _⟩
    | false =>
      rw [hinserted]
      exact ⟨w :: inserted, rfl, (hperm.cons w).trans (List.Perm.swap v w rest)⟩

/-- Texts can be sorted, and sorting keeps them all. -/
theorem exists_sortedCategories {categories : List Value}
    (htext : ∀ c ∈ categories, c.isText = true) :
    ∃ sorted, sortedCategories categories = .ok sorted ∧ sorted.Perm categories := by
  -- What has been sorted so far is generalized, since sorting goes through the list from the front.
  suffices hfold : ∀ sorted : List Value, (∀ c ∈ sorted, c.isText = true) →
      ∃ all, categories.foldlM (fun sorted v => insertCategory v sorted) sorted = .ok all ∧
        all.Perm (sorted ++ categories) from hfold [] (by simp)
  induction categories with
  | nil => exact fun sorted _ => ⟨sorted, rfl, by simp⟩
  | cons c categories ih =>
    intro sorted hsorted
    rw [List.forall_mem_cons] at htext
    obtain ⟨inserted, hinserted, hperm⟩ := exists_insertCategory htext.1 hsorted
    have hinsertedText : ∀ w ∈ inserted, w.isText = true := by
      intro w hw
      rcases List.mem_cons.mp (hperm.mem_iff.mp hw) with rfl | hw
      · exact htext.1
      · exact hsorted w hw
    obtain ⟨all, hall, hallPerm⟩ := ih htext.2 inserted hinsertedText
    refine ⟨all, by rw [List.foldlM_cons, hinserted, ok_bind, hall], ?_⟩
    have hmoved : (inserted ++ categories).Perm (c :: sorted ++ categories) :=
      hperm.append_right categories
    exact hallPerm.trans (hmoved.trans List.perm_middle.symm)

/-! ## Definitions -/

/-- What holds of a definition after it was read: no fallback of the reader is left to be taken, and
the categories are texts, each once. -/
structure IsRead (a : Attribute) : Prop where
  /-- There is an identifier. -/
  id : a.id.truthy = true
  /-- There is a name. -/
  name : a.name.truthy = true
  /-- There is a display name. -/
  displayName : a.displayName.truthy = true
  /-- There is a data type. -/
  dataType : a.dataType.truthy = true
  /-- Whether there are several values is a truth value. -/
  isMultiValue : ∃ b, a.isMultiValue = .bool b
  /-- Whether a value is required is a truth value. -/
  isRequired : ∃ b, a.isRequired = .bool b
  /-- The categories are texts. -/
  categories_text : ∀ c ∈ a.categories, c.isText = true
  /-- No category is there twice. -/
  categories_nodup : a.categories.Nodup

/-- Two definitions that are equal, in whatever order their categories are listed. -/
def Agrees (a b : Attribute) : Prop :=
  ∃ categories : List Value, categories.Perm a.categories ∧ b = { a with categories }

/-- The older field for a category holds a text wherever it is used. -/
def OlderFieldIsText (entry : Value) : Prop :=
  (entry.entry "categories").kind ∉ [.text, .list, .tuple, .set] →
    (entry.entry "category").truthy = true → (entry.entry "category").isText = true

/-- The categories of an entry are texts if the older field holds one wherever it is used. -/
theorem isText_of_mem_entryCategories {entries : Table Value} {categories : List Value}
    (hfieldText : OlderFieldIsText (.mapping entries))
    (h : entryCategories (.mapping entries) = .ok categories) :
    ∀ c ∈ categories, c.isText = true := by
  obtain ⟨given, hgiven, ⟨-, htexts⟩ | ⟨hkind, hsingle⟩⟩ := entryCategories_cases entries
  · obtain rfl := Except.ok.inj (hgiven.symm.trans h)
    exact htexts
  · obtain rfl := Except.ok.inj (hgiven.symm.trans h)
    intro c hc
    rw [hsingle] at hc
    split at hc
    next htruthy => exact List.mem_singleton.mp hc ▸ hfieldText hkind htruthy
    next => simp at hc

/-- After a definition was read, no fallback is left to be taken. -/
theorem isRead_of_ofEntry {entry : Value} {a : Attribute} (h : Catalog.isDefinition entry = true)
    (hfieldText : OlderFieldIsText entry) (ha : ofEntry entry = .ok a) : a.IsRead := by
  have hid := (isDefinition_iff entry).mp h
  obtain ⟨⟨categories, hcategories, hmembers⟩, -, hgiven⟩ := exists_of_ofEntry h ha
  obtain ⟨entries, rfl⟩ := exists_mapping_of_isDefinition h
  have htext := isText_of_mem_entryCategories hfieldText hcategories
  have hname : (((Value.mapping entries).entry "name").orElse
      (givenId (.mapping entries))).truthy = true := by
    rw [Value.truthy_orElse, hid, Bool.or_true]
  have hmemberText : ∀ c ∈ a.categories, c.isText = true :=
    fun c hc => htext c (mem_of_distinct hmembers c hc)
  have hnodup := nodup_of_distinct htext hmembers
  rw [hgiven]
  exact {
    id := hid
    name := hname
    displayName := by rw [given, Value.truthy_orElse, hname, Bool.or_true]
    dataType := by
      rw [given, Value.truthy_orElse, Bool.or_eq_true]
      exact Or.inr rfl
    isMultiValue := ⟨_, rfl⟩
    isRequired := ⟨_, rfl⟩
    categories_text := hmemberText
    categories_nodup := hnodup }

/-- A definition that was read can be written as an entry, and the entry gives the definition. -/
theorem IsRead.ofEntry_toValue {a : Attribute} (h : a.IsRead) :
    ∃ entry b, a.toValue = .ok entry ∧ Catalog.isDefinition entry = true ∧
      ofEntry entry = .ok b ∧ a.Agrees b := by
  obtain ⟨sorted, hsorted, hperm⟩ := exists_sortedCategories h.categories_text
  have hsortedText : ∀ c ∈ sorted, c.isText = true :=
    fun c hc => h.categories_text c (hperm.mem_iff.mp hc)
  let entry : Value := .mapping [
    (.text "id", a.id), (.text "name", a.name), (.text "displayName", a.displayName),
    (.text "categories", .list sorted), (.text "dataType", a.dataType),
    (.text "isMultiValue", a.isMultiValue), (.text "isRequired", a.isRequired),
    (.text "constraints", a.constraints.toValue)]
  have hwritten : a.toValue = .ok entry := by
    rw [toValue, hsorted]
    rfl
  have hid : givenId entry = a.id := Value.orElse_of_truthy h.id _
  have hdefinition : Catalog.isDefinition entry = true :=
    (isDefinition_iff entry).mpr (hid ▸ h.id)
  have hcategories : entryCategories entry = .ok sorted := by
    show Except.ok (sorted.filter Value.isText) = .ok sorted
    rw [List.filter_eq_self.mpr hsortedText]
  have hconstraints : Constraints.ofValue (entry.entry "constraints") = .ok a.constraints :=
    a.constraints.ofValue_toValue
  -- Every field of the entry is there, so that no fallback is taken.
  have hgiven : given entry sorted a.constraints = { a with categories := sorted } := by
    have hname : (entry.entry "name").orElse a.id = a.name := Value.orElse_of_truthy h.name _
    have hdisplayName : ((entry.entry "displayName").orElse (.text "")).orElse a.name =
        a.displayName := by
      show (a.displayName.orElse (.text "")).orElse a.name = a.displayName
      rw [Value.orElse_of_truthy h.displayName, Value.orElse_of_truthy h.displayName]
    have hdataType : (entry.entry "dataType").orElse (.text "string") = a.dataType :=
      Value.orElse_of_truthy h.dataType _
    have hflag (v : Value) (hv : ∃ b, v = .bool b) : Value.bool (flag v) = v := by
      obtain ⟨b, rfl⟩ := hv
      rfl
    have hmulti : Value.bool (flag (entry.entry "isMultiValue")) = a.isMultiValue :=
      hflag a.isMultiValue h.isMultiValue
    have hrequired : Value.bool (flag (entry.entry "isRequired")) = a.isRequired :=
      hflag a.isRequired h.isRequired
    simp only [given, hname, hdisplayName, hdataType, hmulti, hrequired, hid]
  refine ⟨entry, _, hwritten, hdefinition, ?_, sorted, hperm, rfl⟩
  rw [ofEntry_eq hdefinition, hcategories, ok_bind,
    distinct_eq_self hsortedText (hperm.nodup_iff.mpr h.categories_nodup), ok_bind, hconstraints,
    ok_bind, hgiven]
  rfl

/-- A definition depends on the fields of its entry other than the categories only where they
differ. -/
theorem given_congr {entry other : Value} {categories : List Value} {constraints : Constraints}
    (h : ∀ name, name ∉ ["categories", "category"] → entry.entry name = other.entry name) :
    given entry categories constraints = given other categories constraints := by
  have hid : givenId entry = givenId other := by
    rw [givenId, givenId, h "id" (by decide), h "_id" (by decide)]
  simp only [given, hid, h "name" (by decide), h "displayName" (by decide),
    h "dataType" (by decide), h "isMultiValue" (by decide), h "isRequired" (by decide)]

/-- The older field for a single category says the same as the newer one with that category, given
as it is or in a list that repeats it. -/
theorem ofEntry_of_olderField {entry other category : Value}
    (hfields : ∀ name, name ∉ ["categories", "category"] → entry.entry name = other.entry name)
    (hnone : entry.entry "categories" = .null) (hcategory : entry.entry "category" = category)
    (htext : category.isText = true) (htruthy : category.truthy = true)
    (hnewer : other.entry "categories" = category ∨
      ∃ n, other.entry "categories" = .list (List.replicate (n + 1) category)) :
    Catalog.isDefinition other = Catalog.isDefinition entry ∧
      (Catalog.isDefinition entry = true → ofEntry other = ofEntry entry) := by
  have hdefinition : Catalog.isDefinition other = Catalog.isDefinition entry := by
    rw [Catalog.isDefinition, Catalog.isDefinition, Value.hasPresent_eq, Value.hasPresent_eq,
      Value.hasPresent_eq, Value.hasPresent_eq, hfields "id" (by decide),
      hfields "_id" (by decide)]
  refine ⟨hdefinition, fun h => ?_⟩
  rw [ofEntry_eq h, ofEntry_eq (hdefinition.trans h), hfields "constraints" (by decide)]
  obtain ⟨entries, rfl⟩ := exists_mapping_of_isDefinition h
  obtain ⟨others, rfl⟩ := exists_mapping_of_isDefinition (hdefinition.trans h)
  -- Both entries give one category, once all repetitions are dropped.
  have hone : distinct [category] = .ok [category] := distinct_replicate htext 0
  have hgiven : entryCategories (.mapping entries) = .ok [category] := by
    simp only [entryCategories, Value.field_mapping, ok_bind, hnone, hcategory, htruthy, if_true]
    rfl
  have hother : ∃ categories, entryCategories (.mapping others) = .ok categories ∧
      distinct categories = .ok [category] := by
    simp only [entryCategories, Value.field_mapping, ok_bind]
    rcases hnewer with hnewer | ⟨n, hnewer⟩
    · rw [hnewer]
      rcases Value.isText_iff.mp htext with ⟨s, rfl⟩ | ⟨codes, rfl⟩ <;> exact ⟨_, rfl, hone⟩
    · rw [hnewer]
      refine ⟨List.replicate (n + 1) category, ?_, distinct_replicate htext n⟩
      simp [htext]
      rfl
  obtain ⟨categories, hcategories, hdistinct⟩ := hother
  rw [hgiven, hcategories, ok_bind, ok_bind, hone, hdistinct]
  simp only [ok_bind, given_congr hfields]

/-- Definitions that agree have the same categories. -/
theorem Agrees.hasCategory {a b : Attribute} (h : a.Agrees b) (category : Value) :
    a.hasCategory category = b.hasCategory category := by
  obtain ⟨categories, hperm, rfl⟩ := h
  exact hperm.any_eq.symm

/-- Definitions that agree have the same categories, whatever is asked for. -/
theorem Agrees.checkCategory {a b : Attribute} (h : a.Agrees b) (category : Value) :
    a.checkCategory category = b.checkCategory category := by
  cases category <;> simp only [Attribute.checkCategory, h.hasCategory]

end Attribute

/-! ## Answers of catalogs -/

/-- Two answers that are alike: the same fault, or results that are alike. -/
inductive AnswersAlike {α : Type} (R : α → α → Prop) :
    Except ShapeFault α → Except ShapeFault α → Prop
  /-- Both are refused for the same reason. -/
  | fault (cause : ShapeFault) : AnswersAlike R (.error cause) (.error cause)
  /-- Both have results, and these are alike. -/
  | result {a b : α} (h : R a b) : AnswersAlike R (.ok a) (.ok b)

/-- What is made of alike answers in alike ways is alike. -/
theorem AnswersAlike.map {α β : Type} {R : α → α → Prop} {S : β → β → Prop} {g : α → β}
    {x y : Except ShapeFault α} (h : AnswersAlike R x y) (hg : ∀ a b, R a b → S (g a) (g b)) :
    AnswersAlike S (x >>= fun a => .ok (g a)) (y >>= fun a => .ok (g a)) := by
  cases h with
  | fault cause => exact .fault cause
  | result hab => exact .result (hg _ _ hab)

section Lists

variable {α β : Type} {R : α → α → Prop} {l l' : List α}

/-- Searches in lists that are alike find what is alike. -/
theorem rel_find? {p : α → Bool} (hp : ∀ a b, R a b → p a = p b) (h : List.Forall₂ R l l') :
    Option.Rel R (l.find? p) (l'.find? p) := by
  induction h with
  | nil => exact .none
  | cons hab _ ih =>
    rw [List.find?_cons, List.find?_cons, hp _ _ hab]
    split
    · exact .some hab
    · exact ih

/-- What is alike something has every property that follows from that. -/
theorem forall_mem_of_forall₂ {R : α → β → Prop} {Q : β → Prop} {bs : List β}
    (h : List.Forall₂ R l bs) (hQ : ∀ a b, R a b → Q b) : ∀ b ∈ bs, Q b := by
  have hflipped : List.Forall₂ (fun b a => Q b ∧ R a b) bs l :=
    (h.imp fun a b hab => ⟨hQ a b hab, hab⟩).flip
  exact ((List.forall₂_and_left _ _).mp hflipped).1

/-- A filter that may fail gives alike answers for lists that are alike. -/
theorem answersAlike_filterM {f : α → Except ShapeFault Bool} (hf : ∀ a b, R a b → f a = f b)
    (h : List.Forall₂ R l l') : AnswersAlike (List.Forall₂ R) (l.filterM f) (l'.filterM f) := by
  -- What has been kept so far is generalized; it is collected in reverse.
  suffices hkept : ∀ kept kept' : List α, List.Forall₂ R kept kept' →
      AnswersAlike (List.Forall₂ R) (l.filterAuxM f kept) (l'.filterAuxM f kept') by
    exact (hkept [] [] .nil).map fun _ _ hall => List.forall₂_reverse_iff.mpr hall
  induction h with
  | nil => exact fun kept kept' hkept => .result hkept
  | @cons a b rest rest' hab _ ih =>
    intro kept kept' hkept
    rw [List.filterAuxM, List.filterAuxM, hf a b hab]
    cases f b with
    | error cause => exact .fault cause
    | ok keep =>
      cases keep with
      | true => exact ih (a :: kept) (b :: kept') (.cons hab hkept)
      | false => exact ih kept kept' hkept

end Lists

namespace Catalog

/-- Two catalogs that are alike: their definitions agree one by one, and so do their answers to
every search. -/
structure Alike (c d : Catalog) : Prop where
  /-- The definitions agree. -/
  attributes : List.Forall₂ Attribute.Agrees c.attributes d.attributes
  /-- The same identifiers lead to definitions that agree. -/
  lookup : ∀ id, AnswersAlike (Option.Rel Attribute.Agrees) (c.lookup id) (d.lookup id)
  /-- The same names and identifiers find definitions that agree. -/
  find? : ∀ key, Option.Rel Attribute.Agrees (c.find? key) (d.find? key)
  /-- The definitions of a category agree. -/
  forCategory : ∀ category, AnswersAlike
    (fun c d => List.Forall₂ Attribute.Agrees c.attributes d.attributes)
    (c.checkedForCategory category) (d.checkedForCategory category)

/-- Entries of the indexes of two catalogs that lead from the same identifier to definitions that
agree. -/
def EntriesAgree (e f : Value × Attribute) : Prop := e.1 = f.1 ∧ e.2.Agrees f.2

/-- Indexes whose entries agree lead from the same identifiers. -/
theorem contains_eq_of_forall₂ {table table' : Table Attribute}
    (h : List.Forall₂ EntriesAgree table table') (id : Value) :
    table.contains id = table'.contains id := by
  induction h with
  | nil => rfl
  | cons he _ ih =>
    rw [Table.contains, Table.contains] at ih ⊢
    rw [List.any_cons, List.any_cons, he.1, ih]

/-- Indexes of definitions that agree lead from the same identifiers to definitions that agree. -/
theorem forall₂_index {attributes others : List Attribute}
    (h : List.Forall₂ Attribute.Agrees attributes others) :
    List.Forall₂ EntriesAgree (index attributes) (index others) := by
  -- The indexes of what comes earlier are generalized, since an index is filled from the front.
  suffices hfold : ∀ table table' : Table Attribute, List.Forall₂ EntriesAgree table table' →
      List.Forall₂ EntriesAgree
        (attributes.foldl (fun table a => Table.putNew table a.id a) table)
        (others.foldl (fun table a => Table.putNew table a.id a) table') from hfold [] [] .nil
  induction h with
  | nil => exact fun table table' htable => htable
  | @cons a b rest rest' hab _ ih =>
    intro table table' htable
    have hid : a.id = b.id := by
      obtain ⟨_, -, rfl⟩ := hab
      rfl
    have hcontains : table.contains a.id = table'.contains b.id := by
      rw [hid]
      exact contains_eq_of_forall₂ htable b.id
    refine ih (table.putNew a.id a) (table'.putNew b.id b) ?_
    rw [Table.putNew, Table.putNew, hcontains]
    split
    next => exact htable
    next hnew =>
      -- A new identifier is put at the end of both.
      rw [Bool.not_eq_true] at hnew
      rw [Table.put_of_not_contains hnew, Table.put_of_not_contains (hcontains.trans hnew)]
      exact List.rel_append htable (.cons ⟨hid, hab⟩ .nil)

/-- Catalogs of definitions that agree are alike. -/
theorem alike_ofList {attributes others : List Attribute}
    (h : List.Forall₂ Attribute.Agrees attributes others) :
    (ofList attributes).Alike (ofList others) where
  attributes := h
  lookup id := by
    rw [lookup, lookup]
    cases id.asKey with
    | error cause => exact .fault cause
    | ok key =>
      have hsame (e f : Value × Attribute) (hef : EntriesAgree e f) :
          e.1.same key = f.1.same key := by rw [hef.1]
      have hfound := rel_find? hsame (forall₂_index h)
      refine .result ?_
      show Option.Rel Attribute.Agrees ((index attributes).lookup key) ((index others).lookup key)
      rw [Table.lookup, Table.lookup]
      generalize (index attributes).find? _ = found, (index others).find? _ = found' at hfound ⊢
      cases hfound with
      | none => exact .none
      | some hef => exact .some hef.2
  find? key := by
    refine rel_find? (fun a b hab => ?_) h
    obtain ⟨_, -, rfl⟩ := hab
    rfl
  forCategory category := by
    have hfiltered := answersAlike_filterM (fun a b hab => hab.checkCategory category) h
    exact hfiltered.map fun _ _ hkept => hkept

/-! ## Exported catalogs -/

/-- A catalog as a mapping. -/
def exported (c : Catalog) : Except ShapeFault Value := do
  return .mapping [(.text "attributes", .list (← c.attributes.mapM Attribute.toValue))]

/-- Definitions that were read can be written as entries, and the entries give the definitions. -/
theorem exists_attributesOfEntries {attributes : List Attribute}
    (hread : ∀ a ∈ attributes, a.IsRead) (index : Nat) :
    ∃ entries others, attributes.mapM Attribute.toValue = .ok entries ∧
      attributesOfEntries index entries = .ok others ∧
      List.Forall₂ Attribute.Agrees attributes others := by
  induction attributes generalizing index with
  | nil => exact ⟨[], [], rfl, rfl, .nil⟩
  | cons a rest ih =>
    rw [List.forall_mem_cons] at hread
    obtain ⟨entry, b, hentry, hdefinition, hb, hab⟩ := hread.1.ofEntry_toValue
    obtain ⟨entries, others, hentries, hothers, hagree⟩ := ih hread.2 (index + 1)
    refine ⟨entry :: entries, b :: others, ?_, ?_, .cons hab hagree⟩
    · rw [List.mapM_cons, hentry, ok_bind, hentries]
      rfl
    · rw [attributesOfEntries, if_pos hdefinition, hb]
      show attributesOfEntries (index + 1) entries >>= _ = _
      rw [hothers]
      rfl

/-- A catalog that was read has the definitions of the entries of a mapping, and their identifiers
can be keys. -/
theorem exists_of_ofValue {v : Value} {c : Catalog} (h : ofValue v = .ok c) :
    attributesOfEntries 0 (v.entry "attributes").members = .ok c.attributes ∧
      c = ofList c.attributes ∧ ∀ a ∈ c.attributes, a.id.hashable = true := by
  obtain ⟨field, hfield, hrest⟩ := exists_of_bind_eq_ok h
  obtain ⟨items, hitems, hrest⟩ := exists_of_bind_eq_ok hrest
  obtain ⟨attributes, hattributes, hcatalog⟩ := exists_of_bind_eq_ok hrest
  rw [liftM_eq_ok_iff] at hfield hitems hcatalog
  -- The field is the entry of a mapping, and its items are what the entry is made of.
  have hmapping : v.kind = .mapping :=
    (Value.guarded_fieldD v "attributes" .null).exists_ok_iff.mp ⟨field, hfield⟩
  obtain rfl := Except.ok.inj ((Value.field_of_kind hmapping).symm.trans hfield)
  have hlistable := (Value.guarded_itemsIfPresent _).exists_ok_iff.mp ⟨items, hitems⟩
  obtain rfl := Except.ok.inj ((Value.itemsIfPresent_eq hlistable).symm.trans hitems)
  have hhashable := (guarded_ofAttributes attributes).exists_ok_iff.mp ⟨c, hcatalog⟩
  obtain rfl := Except.ok.inj ((ofAttributes_eq_ok hhashable).symm.trans hcatalog)
  exact ⟨hattributes, rfl, hhashable⟩

/-- A mapping with a list of entries is read as the definitions of the entries. -/
theorem ofValue_eq_ok {entries : List Value} {attributes : List Attribute}
    (hattributes : attributesOfEntries 0 entries = .ok attributes)
    (hhashable : ∀ a ∈ attributes, a.id.hashable = true) :
    ofValue (.mapping [(.text "attributes", .list entries)]) = .ok (ofList attributes) := by
  have hitems : (liftM (Value.list entries).itemsIfPresent : Except Fault (List Value)) =
      .ok entries := by
    rw [Value.itemsIfPresent_list]
    rfl
  have hcatalog : (liftM (ofAttributes attributes) : Except Fault Catalog) =
      .ok (ofList attributes) := by
    rw [ofAttributes_eq_ok hhashable]
    rfl
  show (liftM (Value.list entries).itemsIfPresent >>= fun items =>
    attributesOfEntries 0 items >>= fun attributes => liftM (ofAttributes attributes)) = _
  rw [hitems, ok_bind, hattributes, ok_bind, hcatalog]

/-- A mapping is never refused for what stands in one of its entries: a definition that is there has
what it needs. -/
theorem ofValue_ne_entry (v : Value) (index : Nat) (cause : ShapeFault) :
    ofValue v ≠ .error (.load (.entry index cause)) := by
  intro h
  cases v with
  | mapping entries =>
    obtain ⟨shape, hshape⟩ := (guarded_ofValue entries).fault h
    exact Fault.noConfusion hshape
  | _ => exact Fault.noConfusion (Except.error.inj h)

/-- Reading a catalog gives one definition for each entry with an identifier, in order, with
everything that a definition needs, so that no entry is the reason for a refusal. Reading what was
read and written gives definitions that agree, so that every answer is alike. An entry with the
older field for its category gives the definition that it gives with the newer one. The older field
has to hold a text wherever it is used. -/
theorem ofValue_exported (v : Value) :
    (∀ entry cause, isDefinition entry = true → Attribute.ofEntry entry = .error cause →
      cause ≠ .emptyId ∧ (∀ id, cause ≠ .unnamed id) ∧ cause.isContentFault = false) ∧
    (∀ index cause, ofValue v ≠ .error (.load (.entry index cause))) ∧
    (∀ c, ofValue v = .ok c →
      (∀ entry ∈ (v.entry "attributes").members, isDefinition entry = true →
        Attribute.OlderFieldIsText entry) →
      List.Forall₂ (fun entry a => Attribute.ofEntry entry = .ok a ∧
          a.id = Attribute.givenId entry ∧ a.IsRead)
        ((v.entry "attributes").members.filter isDefinition) c.attributes ∧
      ∃ data d, c.exported = .ok data ∧ ofValue data = .ok d ∧ c.Alike d) ∧
    ∀ entry other category : Value,
      (∀ name, name ∉ ["categories", "category"] → entry.entry name = other.entry name) →
      entry.entry "categories" = .null → entry.entry "category" = category →
      category.isText = true → category.truthy = true →
      (other.entry "categories" = category ∨
        ∃ n, other.entry "categories" = .list (List.replicate (n + 1) category)) →
      isDefinition other = isDefinition entry ∧
        (isDefinition entry = true → Attribute.ofEntry other = Attribute.ofEntry entry) := by
  refine ⟨?_, ofValue_ne_entry v, ?_, ?_⟩
  · intro entry cause hdefinition hcause
    have hkind := (Attribute.guarded_ofEntry hdefinition).fault hcause
    refine ⟨?_, ?_, hkind⟩
    · rintro rfl
      exact Bool.noConfusion hkind
    · rintro id rfl
      exact Bool.noConfusion hkind
  · intro c h hfieldText
    obtain ⟨hattributes, hlist, hhashable⟩ := exists_of_ofValue h
    have hdefinitions : ∀ entry ∈ (v.entry "attributes").members.filter isDefinition,
        Attribute.OlderFieldIsText entry := by
      intro entry hentry
      rw [List.mem_filter] at hentry
      exact hfieldText entry hentry.1 hentry.2
    have hread : List.Forall₂ (fun entry a => Attribute.ofEntry entry = .ok a ∧
        a.id = Attribute.givenId entry ∧ a.IsRead)
        ((v.entry "attributes").members.filter isDefinition) c.attributes := by
      have hboth := (List.forall₂_and_left _ _).mpr
        ⟨hdefinitions, forall₂_attributesOfEntries hattributes⟩
      refine hboth.imp ?_
      rintro entry a ⟨hold, hdefinition, ha⟩
      exact ⟨ha, Attribute.id_of_ofEntry hdefinition ha,
        Attribute.isRead_of_ofEntry hdefinition hold ha⟩
    have hisRead : ∀ a ∈ c.attributes, a.IsRead :=
      forall_mem_of_forall₂ hread fun _ _ ha => ha.2.2
    obtain ⟨entries, others, hentries, hothers, hagree⟩ := exists_attributesOfEntries hisRead 0
    -- The identifiers are the same, so that they can still be keys.
    have hothersHashable : ∀ b ∈ others, b.id.hashable = true := by
      refine forall_mem_of_forall₂ ((List.forall₂_and_left _ _).mpr ⟨hhashable, hagree⟩) ?_
      rintro a b ⟨ha, _, -, rfl⟩
      exact ha
    have hdata : c.exported = .ok (.mapping [(.text "attributes", .list entries)]) := by
      rw [exported, hentries]
      rfl
    refine ⟨hread, _, ofList others, hdata, ?_, hlist ▸ alike_ofList hagree⟩
    exact ofValue_eq_ok hothers hothersHashable
  · intro entry other category hfields hnone hcategory htext htruthy hnewer
    exact Attribute.ofEntry_of_olderField hfields hnone hcategory htext htruthy hnewer

/-- The entry of a level, with its category in the older field. -/
def levelEntry : Value := .record ["id", "category"] [.text "level", .text "subject"]

/-- The entry of a level, with its category repeated in the newer field. -/
def repeatedLevelEntry : Value :=
  .record ["id", "categories"] [.text "level", .list [.text "subject", .text "subject"]]

/-- A catalog in which every fallback is taken somewhere: its second entry defines nothing, and the
identifier of the third one stands in the second field for it. -/
def sparseCatalog : Value :=
  .record ["attributes"] [.list [levelEntry, .text "region",
    .record ["_id", "name", "categories", "isMultiValue", "constraints"]
      [.text "zone", .text "Zone", .list [.text "subject", .int 5, .text "resource"], .text "yes",
        .record ["enumValues", "maxLength"] [.list [.text "eu"], .int 2]]]]

/-- The definitions that the catalog gives. -/
def sparseDefinitions : List Attribute :=
  [{ id := .text "level", name := .text "level", displayName := .text "level"
     categories := [.text "subject"] },
    { id := .text "zone", name := .text "Zone", displayName := .text "Zone"
      categories := [.text "subject", .text "resource"], isMultiValue := .bool true
      constraints := { enumValues := [.text "eu"], maxLength := .int 2 } }]

/-- The catalog is read. -/
theorem ofValue_sparseCatalog : ofValue sparseCatalog = .ok (ofList sparseDefinitions) := by
  rfl

/-- The catalog is read again after it was written, although its categories are sorted by then, and
its first entry gives the same definition with the newer field. -/
theorem ofValue_exported_sparse :
    (∃ data d, (ofList sparseDefinitions).exported = .ok data ∧ ofValue data = .ok d ∧
      (ofList sparseDefinitions).Alike d) ∧
    Attribute.ofEntry repeatedLevelEntry = Attribute.ofEntry levelEntry := by
  obtain ⟨-, -, hexported, hrepeated⟩ := ofValue_exported sparseCatalog
  refine ⟨(hexported _ ofValue_sparseCatalog ?_).2, ?_⟩
  · intro entry hentry _ hkind htruthy
    -- Only the first entry has the older field, and it holds a text.
    rcases List.mem_cons.mp hentry with rfl | hentry
    · rfl
    · rcases List.mem_cons.mp hentry with rfl | hentry
      · exact absurd htruthy Bool.false_ne_true
      · obtain rfl := List.mem_singleton.mp hentry
        exact absurd htruthy Bool.false_ne_true
  · refine (hrepeated levelEntry repeatedLevelEntry (.text "subject") ?_ rfl rfl rfl rfl
      (Or.inr ⟨1, rfl⟩)).2 rfl
    intro name hname
    simp only [List.mem_cons, List.not_mem_nil, or_false, not_or] at hname
    simp [levelEntry, repeatedLevelEntry, Value.record, Value.recordEntries, Value.entry,
      Table.lookup_cons, Ne.symm hname.1, Ne.symm hname.2]

end Catalog

end PolicyAuthoring
