import PolicyAuthoring.Proofs.Reopening
import Mathlib.Data.List.TFAE
import Mathlib.Tactic.TFAE

/-!
# Compiling and reopening

A selection that is compiled and reopened comes back in its normal form: texts stripped, picks that
make no condition gone, the operator of every condition picked explicitly, additional resources
sifted. This holds in catalogs in which no name leads astray (`hydrate_compile`). What is picked for
additional resources is lost when no additional resource is, because the document keeps the
conditions with the resources (`not_forall_hydrate_compile_keeps_additional`).

In any catalog with distinct identifiers, `reopened_values_tfae` says for each side when the values
come back: exactly when the name of each condition finds the attribute that the condition was
compiled from. If a name leads astray, then some key is lost, so the values of the conditions never
just change places.
-/

namespace PolicyAuthoring

variable {r : Registry} {c : Catalog} {s : Selection} {stem : Stem} {start : String}
  {picks : Picks} {category : Category} {a b : Attribute}

/-! ## Normal form -/

namespace Catalog

/-- Whether an entry of picks makes a condition: the value says something and the key identifies an
attribute. -/
def isEffective (c : Catalog) (entry : Value × Value) : Bool :=
  !entry.2.isEmpty && (c.get? entry.1).isSome

/-- The picks that make conditions, each with the operator that its condition has. -/
def effective (c : Catalog) (picks : Picks) : Picks where
  values := picks.values.filter c.isEffective
  operators := (picks.values.filter c.isEffective).filterMap fun entry =>
    (c.get? entry.1).map fun a =>
      (entry.1, .text (Operator.resolve a entry.2
        ((picks.operators.lookup entry.1).getD .null)).word)

/-- A selection with its texts stripped, with the picks that make conditions, and with the
additional resources that can be attached. -/
def normalForm (c : Catalog) (s : Selection) : Selection :=
  { s with
    name := (s.name.orElse (.text "")).stripped
    description := (s.description.orElse (.text "")).stripped
    subjectPicks := c.effective s.subjectPicks
    resourcePicks := c.effective s.resourcePicks
    additionalResources := s.additionalResources.filter Value.isNonBlankText
    additionalPicks := if s.covers .additional then c.effective s.additionalPicks else {} }

/-- An entry that makes a condition makes a clause about what its key identifies. -/
theorem clause?_of_isEffective (operators : Table Value) {entry : Value × Value}
    (h : c.isEffective entry = true) :
    ∃ a, c.get? entry.1 = some a ∧ c.clause? operators entry = some {
      definition := a
      operator := Operator.resolve a entry.2 ((operators.lookup entry.1).getD .null)
      value := entry.2 } := by
  rw [isEffective, Bool.and_eq_true, Bool.not_eq_true', Option.isSome_iff_exists] at h
  obtain ⟨hvalue, a, ha⟩ := h
  refine ⟨a, ha, ?_⟩
  rw [clause?, hvalue, if_neg Bool.false_ne_true, ha]
  rfl

/-- An entry that makes no condition makes no clause. -/
theorem clause?_of_not_isEffective {operators : Table Value} {entry : Value × Value}
    (h : c.isEffective entry = false) : c.clause? operators entry = none := by
  rw [isEffective, Bool.and_eq_false_iff, Bool.not_eq_false'] at h
  rw [clause?]
  rcases h with hvalue | hnone
  · rw [if_pos hvalue]
  · rw [Option.not_isSome_iff_eq_none.mp (ne_true_of_eq_false hnone)]
    exact ite_self _

/-- An entry makes a clause exactly when it makes a condition, and the clause is about the attribute
that the key identifies. -/
theorem Identified.clause?_eq (hc : c.Identified) (operators : Table Value)
    (entry : Value × Value) :
    (c.isEffective entry = false ∧ c.clause? operators entry = none) ∨
      ∃ a, c.isEffective entry = true ∧ a ∈ c.attributes ∧ a.id = entry.1 ∧
        c.clause? operators entry = some {
          definition := a
          operator := Operator.resolve a entry.2 ((operators.lookup entry.1).getD .null)
          value := entry.2 } := by
  cases heffective : c.isEffective entry with
  | false => exact Or.inl ⟨rfl, clause?_of_not_isEffective heffective⟩
  | true =>
    obtain ⟨a, ha, hclause⟩ := clause?_of_isEffective operators heffective
    obtain ⟨hmem, hid⟩ := hc.get?_eq_some_iff.mp ha
    exact Or.inr ⟨a, rfl, hmem, hid, hclause⟩

/-- The picks that make conditions have an entry for each clause. -/
theorem Identified.effective_eq (hc : c.Identified) (picks : Picks) :
    c.effective picks =
      { values := (c.clauses picks).map fun x => (x.definition.id, x.value)
        operators := (c.clauses picks).map fun x =>
          (x.definition.id, .text x.operator.word) } := by
  -- Both sides go through the entries once, and keep an entry and its operator or neither.
  rw [effective, Catalog.clauses, List.map_filterMap, List.map_filterMap, List.filterMap_filter,
    ← List.filterMap_eq_filter]
  congr 1
  · refine List.filterMap_congr fun entry _ => ?_
    rcases hc.clause?_eq picks.operators entry with ⟨hp, hx⟩ | ⟨a, hp, -, hid, hx⟩
    · rw [hx, Option.guard, hp]
      rfl
    · rw [hx, Option.guard, hp, Option.map_some, hid]
      rfl
  · refine List.filterMap_congr fun entry _ => ?_
    rcases hc.clause?_eq picks.operators entry with ⟨hp, hx⟩ | ⟨a, hp, ha, hid, hx⟩
    · rw [hx, hp]
      rfl
    · rw [hx, hp, if_pos rfl, ← hid, hc.get?_id ha]
      rfl

end Catalog

/-! ## Names that do not lead astray -/

namespace Catalog

/-- A catalog with distinct identifiers in which no name leads astray: every name equals itself, no
name is the identifier of another attribute, and no two attributes of one category share a name. -/
structure Unambiguous (c : Catalog) : Prop extends Identified c where
  /-- Names equal themselves, as texts do. -/
  name_self : ∀ a ∈ c.attributes, a.name.equals a.name = true
  /-- No name is the identifier of another attribute. -/
  name_ne_id : ∀ a ∈ c.attributes, ∀ b ∈ c.attributes, a.name = b.id → a = b
  /-- Attributes of one category have different names. -/
  name_shared : ∀ (category : Category), ∀ a ∈ c.attributes, ∀ b ∈ c.attributes,
    a.hasCategory (.text category.name) = true → b.hasCategory (.text category.name) = true →
      a.name.equals b.name = true → a = b

/-- A name that an attribute of a category answers to finds an attribute of the category. -/
theorem hasCategory_of_resolve? (ha : a ∈ c.attributes)
    (hcategory : a.hasCategory (.text category.name) = true) {name : Value}
    (hanswers : a.answersTo name = true) (h : c.resolve? category name = some b) :
    b.hasCategory (.text category.name) = true := by
  rw [resolve?_eq_find?, searchOrder, List.find?_append] at h
  cases hfirst : (c.attributes.filter fun a => a.hasCategory (.text category.name)).find?
      fun a => a.answersTo name with
  | none =>
    have hno := List.find?_eq_none.mp hfirst a (List.mem_filter.mpr ⟨ha, hcategory⟩)
    exact absurd hanswers hno
  | some b' =>
    rw [hfirst, Option.some_or, Option.some.injEq] at h
    rw [← h]
    exact (List.mem_filter.mp (List.mem_of_find?_eq_some hfirst)).2

/-- In a catalog in which no name leads astray, the name of an attribute finds the attribute on its
side. -/
theorem Unambiguous.resolve?_name (hc : c.Unambiguous) (ha : a ∈ c.attributes)
    (hcategory : a.hasCategory (.text category.name) = true) :
    c.resolve? category a.name = some a := by
  have hself : a.answersTo a.name = true := by
    rw [Attribute.answersTo, hc.name_self a ha, Bool.true_or]
  cases hfind : c.resolve? category a.name with
  | none =>
    rw [resolve?_eq_none_iff] at hfind
    rw [hfind a ha] at hself
    cases hself
  | some b =>
    -- What is found has the category too, so it can share neither name nor identifier with `a`.
    obtain ⟨hb, hanswers⟩ := mem_of_resolve? hfind
    have hbcategory := hasCategory_of_resolve? ha hcategory hself hfind
    rw [Attribute.answersTo, Bool.or_eq_true, Value.equals_iff_of_isText (hc.id_text b hb)]
      at hanswers
    rcases hanswers with hname | hid
    · rw [hc.name_shared category b hb a ha hbcategory hcategory hname]
    · rw [hc.name_ne_id a ha b hb hid.symm]

end Catalog

namespace Selection

/-- Every key of a side that identifies an attribute identifies one that belongs to the side. -/
def Placed (s : Selection) (c : Catalog) : Prop :=
  ∀ side, ∀ entry ∈ (s.picks side).values, ∀ a, c.get? entry.1 = some a →
    a.hasCategory (.text side.category.name) = true

end Selection

/-- Conditions whose names find the attributes that they were compiled from are filed as the picks
that made them. -/
theorem Catalog.Identified.filed_conditions (hc : c.Identified)
    (hpicks : Table.Distinct picks.values)
    (hfound : ∀ x ∈ c.clauses picks,
      c.resolve? category x.definition.name = some x.definition) :
    c.filed category (c.conditions picks) = c.effective picks := by
  rw [hc.effective_eq, conditions,
    hc.filed_of_targets hfound (hc.nodup_definitions hpicks)]

/-! ## The round trip -/

/-- Compiling a selection and reopening its document succeeds and gives the normal form of the
selection, if no name leads astray and the picks belong to their sides. -/
theorem hydrate_compile (hc : r.catalog.Unambiguous) (hs : s.Compilable) (hkeyed : s.Keyed)
    (hplaced : s.Placed r.catalog) (hstem : stem.text = .ok start) :
    ∃ d, r.compile stem s = .ok d ∧ r.catalog.hydrate d = .ok (r.catalog.normalForm s) := by
  refine ⟨_, Registry.compile_eq_document hs hstem, ?_⟩
  rw [hc.toIdentified.hydrate_document hs.complete]
  -- On each side the conditions are filed as the picks that made them.
  have hfiled (side : Side) :
      r.catalog.filed side.category (r.catalog.conditions (s.picks side)) =
        r.catalog.effective (s.picks side) := by
    refine hc.toIdentified.filed_conditions (hkeyed side) fun x hx => ?_
    obtain ⟨hmem, hentry, -, -⟩ := hc.toIdentified.mem_clauses_iff.mp hx
    exact hc.resolve?_name hmem (hplaced side _ hentry _ (hc.toIdentified.get?_id hmem))
  have hsubject := hfiled .subject
  have hresource := hfiled .resource
  have hadditional := hfiled .additional
  simp only [Selection.picks, Side.category] at hsubject hresource hadditional
  rw [Catalog.reopened, hsubject, hresource, hadditional]
  rfl

/-- A catalog in which a subject and a resource have an attribute of the same name. -/
def levels : Catalog := .ofList [
  { id := .text "secrecy", name := .text "level", displayName := .text "Secrecy"
    categories := [.text "resource"] },
  { id := .text "clearance", name := .text "level", displayName := .text "Clearance"
    categories := [.text "subject"] }]

/-- In the catalog of levels no name leads astray. -/
theorem unambiguous_levels : levels.Unambiguous where
  id_text := by decide
  id_nodup := by simp [levels, Catalog.ofList]
  name_self := by decide
  name_ne_id := by simp [levels, Catalog.ofList]
  name_shared := by
    intro category
    cases category <;>
      simp [levels, Catalog.ofList, Attribute.hasCategory, Category.name]

/-- A selection with both levels, a key that identifies nothing and an operator that is not on
offer. -/
def levelSelection : Selection where
  name := .text " Reading "
  subject := .text "clerk"
  actions := [.text "read"]
  resources := [.text "file"]
  subjectPicks :=
    { values := [(.text "age", .int 30), (.text "clearance", .list [.int 2, .int 3])]
      operators := [(.text "clearance", .text "greater_than")] }
  resourcePicks := { values := [(.text "secrecy", .text "low")] }
  additionalResources := [.text " ", .text "archive"]

/-- The selection of levels can be compiled, and its picks belong to their sides. -/
theorem levelSelection_spec :
    levelSelection.Compilable ∧ levelSelection.Keyed ∧ levelSelection.Placed levels := by
  refine ⟨⟨rfl, rfl, rfl, by decide⟩, ?_, ?_⟩
  · intro side
    cases side <;> simp [levelSelection, Selection.picks, Table.Distinct]
  · intro side entry hentry a ha
    cases side with
    | subject =>
      simp only [levelSelection, Selection.picks, List.mem_cons, List.not_mem_nil, or_false]
        at hentry
      rcases hentry with rfl | rfl
      · cases ha
      · cases ha
        rfl
    | resource =>
      simp only [levelSelection, Selection.picks, List.mem_cons, List.not_mem_nil, or_false]
        at hentry
      cases hentry
      cases ha
      rfl
    | additional => cases hentry

/-- The two levels find their way back although they share a name. -/
theorem hydrate_compile_levels :
    levels.Unambiguous ∧ levelSelection.Compilable ∧ levelSelection.Keyed ∧
      levelSelection.Placed levels ∧
      ∃ d, Registry.compile { catalog := levels } (.unique 7) levelSelection = .ok d ∧
        levels.hydrate d = .ok (levels.normalForm levelSelection) :=
  have ⟨hs, hkeyed, hplaced⟩ := levelSelection_spec
  ⟨unambiguous_levels, hs, hkeyed, hplaced,
    hydrate_compile (r := { catalog := levels }) unambiguous_levels hs hkeyed hplaced rfl⟩

/-- What is picked for additional resources does not come back in every case: without an additional
resource the document has no place for it. -/
theorem not_forall_hydrate_compile_keeps_additional :
    ¬ ∀ (r : Registry) (s : Selection) (stem : Stem) (start : String), r.catalog.Unambiguous →
      s.Compilable → s.Keyed → s.Placed r.catalog → stem.text = .ok start →
      ∃ d, r.compile stem s = .ok d ∧ r.catalog.hydrate d = .ok { r.catalog.normalForm s with
        additionalPicks := r.catalog.effective s.additionalPicks } := by
  intro hforall
  let floor : Attribute := {
    id := .text "floor", name := .text "floor", displayName := .text "Floor"
    categories := [.text "additional-resource"] }
  let r : Registry := { catalog := .ofList [floor] }
  let s : Selection := {
    subject := .text "clerk", actions := [.text "read"], resources := [.text "file"]
    additionalPicks := { values := [(.text "floor", .int 3)] } }
  have hc : r.catalog.Unambiguous := {
    id_text := by decide
    id_nodup := List.nodup_singleton _
    name_self := by decide
    name_ne_id := by simp [r, Catalog.ofList]
    name_shared := by simp [r, Catalog.ofList] }
  have hs : s.Compilable := ⟨rfl, rfl, rfl, by decide⟩
  have hkeyed : s.Keyed := by
    intro side
    cases side <;> simp [s, Selection.picks, Table.Distinct]
  have hplaced : s.Placed r.catalog := by
    intro side entry hentry a ha
    cases side with
    | subject => cases hentry
    | resource => cases hentry
    | additional =>
      cases List.mem_singleton.mp hentry
      cases ha
      rfl
  -- The document has no attachment, so nothing is filed on the additional side.
  obtain ⟨d, hd, ht⟩ := hforall r s (.unique 1) _ hc hs hkeyed hplaced rfl
  rw [Registry.compile_eq_document hs rfl, Except.ok.injEq] at hd
  rw [← hd, hc.toIdentified.hydrate_document hs.complete, Except.ok.injEq] at ht
  have hvalues : ([] : Table Value) = [(.text "floor", .int 3)] :=
    congrArg (fun t : Selection => t.additionalPicks.values) ht
  cases hvalues

/-! ## When the values come back -/

/-- The values of a covered side come back exactly when the name of each of its conditions finds the
attribute that the condition was compiled from. It makes no difference whether coming back is taken
to be of the entries in their order, of the values by key, of the set of keys, or to mean only that
no key is lost. -/
theorem reopened_values_tfae (hc : r.catalog.Identified) (hs : s.Compilable) (hkeyed : s.Keyed)
    (hstem : stem.text = .ok start) :
    ∃ d t, r.compile stem s = .ok d ∧ r.catalog.hydrate d = .ok t ∧
      ∀ side, s.covers side = true →
        let kept := (s.picks side).values.filter r.catalog.isEffective
        let rebuilt := (t.picks side).values
        [rebuilt = kept,
          ∀ key, rebuilt.lookup key = Table.lookup kept key,
          ∀ key, rebuilt.contains key = Table.contains kept key,
          ∀ entry ∈ kept, rebuilt.contains entry.1 = true,
          ∀ entry ∈ kept, ∀ a, r.catalog.get? entry.1 = some a →
            r.catalog.resolve? side.category a.name = some a].TFAE := by
  refine ⟨_, _, Registry.compile_eq_document hs hstem, hc.hydrate_document hs.complete,
    fun side hside => ?_⟩
  rw [Catalog.picks_reopened hside]
  intro kept rebuilt
  have hkept : kept = (r.catalog.clauses (s.picks side)).map fun x => (x.definition.id, x.value) :=
    congrArg Picks.values (hc.effective_eq (s.picks side))
  tfae_have 1 → 2 := fun h key => by rw [h]
  tfae_have 2 → 3 := fun h key => by
    rw [Table.contains_eq_isSome, Table.contains_eq_isSome, h key]
  tfae_have 3 → 4 := fun h entry hentry => by
    rw [h, Table.contains, List.any_eq_true]
    exact ⟨entry, hentry, Value.same_self entry.1⟩
  tfae_have 4 → 5 := by
    intro h entry hentry a ha
    obtain ⟨hmem, hid⟩ := hc.get?_eq_some_iff.mp ha
    -- If no key is lost, every attribute with a condition is found by the name of such a one.
    have hself : ∀ a ∈ (r.catalog.clauses (s.picks side)).map Clause.definition,
        r.catalog.resolve? side.category a.name = some a := by
      refine hc.resolve?_eq_self_of_forall_found (fun a ha => ?_) fun a ha => ?_
      · obtain ⟨x, hx, rfl⟩ := List.mem_map.mp ha
        exact (hc.mem_clauses_iff.mp hx).1
      · obtain ⟨x, hx, rfl⟩ := List.mem_map.mp ha
        have hmem := (hc.mem_clauses_iff.mp hx).1
        have hcontains := h (x.definition.id, x.value) (by
          rw [hkept]
          exact List.mem_map_of_mem hx)
        obtain ⟨y, hy, hkey⟩ := (Catalog.contains_filed_values (hc.id_text _ hmem)).mp hcontains
        exact ⟨y.definition, List.mem_map_of_mem hy, (hc.filingKey_eq_id_iff hmem).mp hkey⟩
    rw [hkept, List.mem_map] at hentry
    obtain ⟨x, hx, rfl⟩ := hentry
    have hxa := hc.eq_of_id_eq (hc.mem_clauses_iff.mp hx).1 hmem hid.symm
    exact hself a (List.mem_map.mpr ⟨x, hx, hxa⟩)
  tfae_have 5 → 1 := by
    intro h
    refine congrArg Picks.values (hc.filed_conditions (hkeyed side) fun x hx => ?_)
    refine h (x.definition.id, x.value) ?_ x.definition
      (hc.get?_id (hc.mem_clauses_iff.mp hx).1)
    rw [hkept]
    exact List.mem_map_of_mem hx
  tfae_finish

/-- The value for a grade is lost because its name finds the clearance. -/
theorem reopened_values_tfae_grades :
    grades.Identified ∧ gradeSelection.Compilable ∧ gradeSelection.Keyed ∧
      ∃ d t, Registry.compile { catalog := grades } (.unique 7) gradeSelection = .ok d ∧
        grades.hydrate d = .ok t ∧
        ∃ entry ∈ gradeSelection.subjectPicks.values.filter grades.isEffective,
          t.subjectPicks.values.contains entry.1 = false := by
  obtain ⟨hs, hkeyed⟩ := gradeSelection_spec
  have hstem : (Stem.unique 7).text = .ok _ := rfl
  obtain ⟨d, t, hd, ht, htfae⟩ :=
    reopened_values_tfae (r := { catalog := grades }) identified_grades hs hkeyed hstem
  refine ⟨identified_grades, hs, hkeyed, d, t, hd, ht, ?_⟩
  by_contra hnone
  have hkept : ∀ entry ∈ gradeSelection.subjectPicks.values.filter grades.isEffective,
      t.subjectPicks.values.contains entry.1 = true := by
    intro entry hentry
    rw [← Bool.not_eq_false]
    exact fun h => hnone ⟨entry, hentry, h⟩
  have hiff : (∀ entry ∈ gradeSelection.subjectPicks.values.filter grades.isEffective,
        t.subjectPicks.values.contains entry.1 = true) ↔
      ∀ entry ∈ gradeSelection.subjectPicks.values.filter grades.isEffective, ∀ a,
        grades.get? entry.1 = some a → grades.resolve? .subject a.name = some a :=
    (htfae .subject rfl).out 3 4
  have hfound := hiff.mp hkept (.text "grade", .int 3) (List.mem_singleton_self _) _ rfl
  have hid : Value.text "clearance" = .text "grade" :=
    congrArg Attribute.id (Option.some.inj hfound)
  exact absurd hid (by simp)

end PolicyAuthoring
