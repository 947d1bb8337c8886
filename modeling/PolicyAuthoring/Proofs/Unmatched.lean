import PolicyAuthoring.Proofs.Collision
import PolicyAuthoring.Proofs.Conditions

/-!
# Conditions that find no attribute

A document may come from elsewhere, or from a time when the catalog had other attributes. When it is
reopened, a condition whose name is neither the name nor the identifier of an attribute is kept
under its own name. Such a name is no identifier of the catalog, so the keys of these conditions are
apart from those of all others, whether or not identifiers recur.

`compile_hydrate` says what is left when the reopened document is compiled again: one condition for
each attribute that a name found, in the order in which they were found first, with the value that
was given last unless that is empty. Conditions that found nothing are dropped, and none is added.
-/

namespace PolicyAuthoring

/-! ## Documents -/

namespace Document

/-- Whether a document, when it is reopened, has conditions on a side that can be compiled again:
those on additional resources need a resource that is not blank. -/
def covers (d : Document) : Side → Bool
  | .additional => d.additionalResources.any fun a => a.id.isNonBlankText
  | _ => true

/-- A document whose name, description and names of conditions are texts. -/
structure HasTexts (d : Document) : Prop where
  /-- The name is a text. -/
  name : d.name.isText = true
  /-- The description is a text. -/
  description : d.description.isText = true
  /-- The names of the conditions that stand for those of a side are texts. -/
  conditions : ∀ side, ∀ x ∈ d.conditionsOn side, x.name.isText = true

end Document

variable {r : Registry} {s : Selection} {d : Document} {stem : Stem} {start : String}

/-! ## Matched names -/

namespace Catalog

variable {c : Catalog} {category : Category} {conditions : List Condition} {name key : Value}

/-- A value is the identifier of an attribute. -/
def Identifies (c : Catalog) (key : Value) : Prop := ∃ a ∈ c.attributes, a.id = key

/-- A name is the name or the identifier of an attribute. -/
def Matches (c : Catalog) (name : Value) : Prop :=
  ∃ a ∈ c.attributes, a.name = name ∨ a.id = name

/-- A text finds an attribute exactly if it is the name or the identifier of one. -/
theorem isSome_resolve?_iff (category : Category) (hname : name.isText = true) :
    (c.resolve? category name).isSome = true ↔ c.Matches name := by
  rw [← not_iff_not, Bool.not_eq_true, Option.isSome_eq_false_iff, Option.isNone_iff_eq_none,
    resolve?_eq_none_iff]
  simp only [Matches, Attribute.answersTo, ← Bool.not_eq_true, Bool.or_eq_true,
    Value.equals_iff_of_isText_right hname]
  push Not
  rfl

/-- A text that finds no attribute is no identifier. -/
theorem not_identifies_of_resolve?_eq_none (hname : name.isText = true)
    (h : c.resolve? category name = none) : ¬ c.Identifies name := by
  rintro ⟨a, ha, hid⟩
  have hsome := (isSome_resolve?_iff category hname).mpr ⟨a, ha, Or.inr hid⟩
  rw [h] at hsome
  cases hsome

/-- A condition is filed under an identifier exactly if its name is the name or the identifier of an
attribute. -/
theorem identifies_filingKey_iff (hname : name.isText = true) :
    c.Identifies (c.filingKey category name) ↔ c.Matches name := by
  rw [← isSome_resolve?_iff category hname, filingKey]
  cases hfound : c.resolve? category name with
  | some b => exact iff_of_true ⟨b, (mem_of_resolve? hfound).1, rfl⟩ rfl
  | none =>
    exact iff_of_false (not_identifies_of_resolve?_eq_none hname hfound) Bool.false_ne_true

/-- A condition that matches no attribute is filed under its own name. -/
theorem filingKey_of_not_matches (hname : name.isText = true) (h : ¬ c.Matches name) :
    c.filingKey category name = name := by
  rw [← isSome_resolve?_iff category hname, Bool.not_eq_true, Option.isSome_eq_false_iff,
    Option.isNone_iff_eq_none] at h
  rw [filingKey, h]
  rfl

/-- A condition with a text for a name is filed under a text, if identifiers are texts. -/
theorem isText_filingKey (hids : ∀ a ∈ c.attributes, a.id.isText = true)
    (hname : name.isText = true) : (c.filingKey category name).isText = true := by
  rw [filingKey]
  cases hfound : c.resolve? category name with
  | some b => exact hids b (mem_of_resolve? hfound).1
  | none => exact hname

/-- Searching for a text by identifier finds something exactly if the text is an identifier. -/
theorem isSome_get?_iff (hkey : key.isText = true) :
    (c.get? key).isSome = true ↔ c.Identifies key := by
  rw [← not_iff_not, Bool.not_eq_true, Option.isSome_eq_false_iff, Option.isNone_iff_eq_none,
    get?_eq_none_iff hkey, Identifies]
  push Not
  rfl

/-! ## What is left of conditions -/

/-- The identifiers of the attributes that the names of conditions find, each where it is found
first. -/
def foundIds (c : Catalog) (category : Category) (conditions : List Condition) : List Value :=
  Table.firstKeys (conditions.filterMap fun x => (c.resolve? category x.name).map Attribute.id)

/-- The value of the last condition whose name finds an attribute with an identifier, and null if
there is none. -/
def lastValue (c : Catalog) (category : Category) (conditions : List Condition) (id : Value) :
    Value :=
  ((conditions.filter fun x => (c.resolve? category x.name).any fun a => a.id.same id).getLast?.map
    Condition.value).getD .null

/-- The identifiers that are found, except those for which an empty value was given last. -/
def keptIds (c : Catalog) (category : Category) (conditions : List Condition) : List Value :=
  (c.foundIds category conditions).filter fun id => !(c.lastValue category conditions id).isEmpty

/-- The conditions that are filed under an identifier are those whose names find an attribute with
the identifier. -/
theorem filedUnder_of_identifies (hnames : ∀ x ∈ conditions, x.name.isText = true)
    (hkey : c.Identifies key) :
    c.filedUnder category conditions key =
      conditions.filter fun x => (c.resolve? category x.name).any fun a => a.id.same key := by
  refine List.filter_congr fun x hx => ?_
  rw [filingKey]
  cases hfound : c.resolve? category x.name with
  | some a => rfl
  | none =>
    -- The condition is filed under its name, which is not the identifier.
    rw [Option.map_none, Option.getD_none, Option.any_none, ← Bool.not_eq_true,
      Value.same_iff_of_isText (hnames x hx)]
    rintro rfl
    exact not_identifies_of_resolve?_eq_none (hnames x hx) hfound hkey

/-- A key that is no identifier is the name of a condition that is neither the name nor the
identifier of an attribute. -/
theorem mem_keys_and_not_identifies_iff (hnames : ∀ x ∈ conditions, x.name.isText = true) :
    key ∈ (c.filed category conditions).values.keys ∧ ¬ c.Identifies key ↔
      ∃ x ∈ conditions, ¬ c.Matches x.name ∧ x.name = key := by
  constructor
  · rintro ⟨hkey, hidentifies⟩
    obtain ⟨x, hx, rfl⟩ := exists_of_mem_keys_filed hkey
    rw [identifies_filingKey_iff (hnames x hx)] at hidentifies
    exact ⟨x, hx, hidentifies, (filingKey_of_not_matches (hnames x hx) hidentifies).symm⟩
  · rintro ⟨x, hx, hmatches, rfl⟩
    have hfiling : c.filingKey category x.name = x.name :=
      filingKey_of_not_matches (hnames x hx) hmatches
    have hkey : c.filingKey category x.name ∈ (c.filed category conditions).values.keys :=
      filingKey_mem_keys_filed hx (by rw [hfiling]; exact hnames x hx)
    have hidentifies : ¬ c.Identifies (c.filingKey category x.name) :=
      (identifies_filingKey_iff (hnames x hx)).not.mpr hmatches
    rw [hfiling] at hkey hidentifies
    exact ⟨hkey, hidentifies⟩

section Filed

variable (hids : ∀ a ∈ c.attributes, a.id.isText = true)
  (hnames : ∀ x ∈ conditions, x.name.isText = true)

include hids hnames

/-- All keys under which the conditions are filed are texts. -/
theorem isText_of_mem_keys_filed (hkey : key ∈ (c.filed category conditions).values.keys) :
    key.isText = true := by
  obtain ⟨x, hx, rfl⟩ := exists_of_mem_keys_filed hkey
  exact isText_filingKey hids (hnames x hx)

/-- A key that is an identifier is one that a condition is filed under because its name is the name
or the identifier of an attribute. -/
theorem mem_keys_and_identifies_iff :
    key ∈ (c.filed category conditions).values.keys ∧ c.Identifies key ↔
      ∃ x ∈ conditions, c.Matches x.name ∧ c.filingKey category x.name = key := by
  constructor
  · rintro ⟨hkey, hidentifies⟩
    obtain ⟨x, hx, rfl⟩ := exists_of_mem_keys_filed hkey
    exact ⟨x, hx, (identifies_filingKey_iff (hnames x hx)).mp hidentifies, rfl⟩
  · rintro ⟨x, hx, hmatches, rfl⟩
    exact ⟨filingKey_mem_keys_filed hx (isText_filingKey hids (hnames x hx)),
      (identifies_filingKey_iff (hnames x hx)).mpr hmatches⟩

/-- What is filed under an identifier is the value that was given last for it. -/
theorem lastValue_of_mem {entry : Value × Value}
    (hentry : entry ∈ (c.filed category conditions).values) (hkey : c.Identifies entry.1) :
    c.lastValue category conditions entry.1 = entry.2 := by
  have hkeys : ∀ x ∈ conditions, (c.filingKey category x.name).hashable = true :=
    fun x hx => Value.hashable_of_isText (isText_filingKey hids (hnames x hx))
  have htext := isText_of_mem_keys_filed hids hnames (List.mem_map_of_mem hentry)
  have hlookup := lookup_filed_values hkeys (Value.hashable_of_isText htext)
  have hstored : (c.filed category conditions).values.lookup entry.1 = some entry.2 :=
    Table.lookup_of_mem (Table.distinct_ofEntries _) hentry
  rw [hstored, filedUnder_of_identifies hnames hkey] at hlookup
  rw [lastValue, ← hlookup, Option.getD_some]

/-- The identifiers that are found are the keys of filed conditions that are identifiers. -/
theorem foundIds_eq :
    c.foundIds category conditions =
      (c.filed category conditions).values.keys.filter fun key => (c.get? key).isSome := by
  have htext : ∀ k ∈ conditions.map fun x => c.filingKey category x.name, k.isText = true :=
    List.forall_mem_map.mpr fun x hx => isText_filingKey hids (hnames x hx)
  -- Keys that are texts are equal only if they are the same, so they are left out together.
  have hsame : ∀ k ∈ conditions.map fun x => c.filingKey category x.name,
      ∀ l ∈ conditions.map fun x => c.filingKey category x.name, k.same l = true →
        (c.get? k).isSome = (c.get? l).isSome := by
    intro k hk l _ hkl
    rw [(Value.same_iff_of_isText (htext k hk)).mp hkl]
  rw [keys_filed, Table.filter_firstKeys hsame, foundIds, ← List.filterMap_eq_filter,
    List.filterMap_map]
  -- A condition is filed under an identifier exactly if its name finds an attribute.
  refine congrArg Table.firstKeys (List.filterMap_congr fun x hx => ?_)
  rw [Function.comp_apply, Option.guard]
  cases hfound : c.resolve? category x.name with
  | some a =>
    have hid : c.filingKey category x.name = a.id := by rw [filingKey, hfound]; rfl
    have ha := (mem_of_resolve? hfound).1
    rw [hid, (isSome_get?_iff (hids a ha)).mpr ⟨a, ha, rfl⟩]
    rfl
  | none =>
    have hid : c.filingKey category x.name = x.name := by rw [filingKey, hfound]; rfl
    have hnone := not_identifies_of_resolve?_eq_none (hnames x hx) hfound
    rw [← isSome_get?_iff (hnames x hx), Bool.not_eq_true] at hnone
    rw [hid, hnone]
    rfl

/-- The conditions that filed conditions make have the names of the attributes that are kept and the
values that were given last. -/
theorem map_conditions_filed :
    (c.conditions (c.filed category conditions)).map (fun x => (some x.name, x.value)) =
      (c.keptIds category conditions).map fun id =>
        ((c.get? id).map Attribute.name, c.lastValue category conditions id) := by
  rw [keptIds, foundIds_eq hids hnames, List.filter_filter, Catalog.conditions, clauses,
    List.map_map, List.map_filterMap, Table.keys, List.filter_map, List.map_map,
    ← List.filterMap_eq_filter, ← List.filterMap_eq_map, List.filterMap_filterMap]
  -- Both sides go through the entries once, and keep those that make a condition.
  refine List.filterMap_congr fun entry hentry => ?_
  have htext := isText_of_mem_keys_filed hids hnames (List.mem_map_of_mem hentry)
  have hlast : (c.get? entry.1).isSome = true →
      c.lastValue category conditions entry.1 = entry.2 :=
    fun hsome => lastValue_of_mem hids hnames hentry ((isSome_get?_iff htext).mp hsome)
  have hkept : (!(c.lastValue category conditions entry.1).isEmpty &&
      (c.get? entry.1).isSome) = c.isEffective entry := by
    rw [isEffective, Bool.and_comm, Bool.and_comm (!entry.2.isEmpty)]
    cases hsome : (c.get? entry.1).isSome with
    | false => rfl
    | true => rw [hlast hsome]
  simp only [Option.guard, Function.comp_apply, hkept]
  cases heffective : c.isEffective entry with
  | false =>
    rw [clause?_of_not_isEffective heffective]
    rfl
  | true =>
    obtain ⟨a, hget, hclause⟩ :=
      clause?_of_isEffective (c.filed category conditions).operators heffective
    rw [hclause, if_pos rfl, Option.bind_some, hget, hlast (by rw [hget]; rfl)]
    rfl

end Filed

end Catalog

/-! ## Compiling what was reopened -/

/-- A selection that comes of reopening a document covers the sides that the document covers. -/
theorem Selection.covers_of_hydrate {c : Catalog} (h : c.hydrate d = .ok s) (side : Side) :
    s.covers side = d.covers side := by
  cases side with
  | subject => rfl
  | resource => rfl
  | additional =>
    rw [covers, Catalog.eq_of_hydrate h, List.any_map]
    rfl

/-- A document with texts is always reopened. The keys on each side that are identifiers come from
conditions whose names are names or identifiers of attributes, and the other keys are the names of
the other conditions. If the selection is complete, it is compiled again unless an action cannot be
looked up, and on each side the conditions are those of the attributes that were found, in the order
in which they were found first, each with the name of the first attribute that has the identifier
and with the value that was given last, unless that is empty. -/
theorem compile_hydrate (hids : ∀ a ∈ r.catalog.attributes, a.id.isText = true)
    (hd : d.HasTexts) :
    ∃ s, r.catalog.hydrate d = .ok s ∧
      (∀ side key,
        (key ∈ (s.picks side).values.keys ∧ r.catalog.Identifies key ↔
          ∃ x ∈ d.conditionsOn side, r.catalog.Matches x.name ∧
            r.catalog.filingKey side.category x.name = key) ∧
        (key ∈ (s.picks side).values.keys ∧ ¬ r.catalog.Identifies key ↔
          ∃ x ∈ d.conditionsOn side, ¬ r.catalog.Matches x.name ∧ x.name = key)) ∧
      (s.isComplete = true → ∀ stem,
        ((∃ d', r.compile stem s = .ok d') ↔
          (∀ action ∈ d.actions, action.hashable = true) ∧ ∃ start, stem.text = .ok start) ∧
        ∀ d', r.compile stem s = .ok d' → ∀ side, d.covers side = true →
          d'.conditionLists side ≠ [] ∧
          ∀ xs ∈ d'.conditionLists side,
            xs.map (fun x => (some x.name, x.value)) =
              (r.catalog.keptIds side.category (d.conditionsOn side)).map fun id =>
                ((r.catalog.get? id).map Attribute.name,
                  r.catalog.lastValue side.category (d.conditionsOn side) id)) := by
  -- All keys are texts, so nothing keeps the conditions from being filed.
  have hopen : r.catalog.CanReopen d := fun side x hx =>
    Value.hashable_of_isText (Catalog.isText_filingKey hids (hd.conditions side x hx))
  obtain ⟨s, hs⟩ := (r.catalog.guarded_hydrate d).exists_ok_iff.mpr hopen
  have hfiled (side : Side) :
      s.picks side = r.catalog.filed side.category (d.conditionsOn side) :=
    (Catalog.eq_filed_of_picksOf (Catalog.picksOf_of_hydrate hs side)).2
  have hactions : s.actions = d.actions := by rw [Catalog.eq_of_hydrate hs]
  obtain ⟨hname, hdescription⟩ := Catalog.texts_of_hydrate hs
  -- First the keys, then when compiling succeeds, and last what it gives.
  refine ⟨s, hs, fun side key => ?_, fun hcomplete stem => ⟨⟨?_, ?_⟩, ?_⟩⟩
  · rw [hfiled side]
    exact ⟨Catalog.mem_keys_and_identifies_iff hids (hd.conditions side),
      Catalog.mem_keys_and_not_identifies_iff (hd.conditions side)⟩
  · rintro ⟨d', hd'⟩
    obtain ⟨hcompilable, start, hstem, -⟩ := Registry.compile_eq_ok_iff.mp hd'
    rw [← hactions]
    exact ⟨hcompilable.action_hashable, start, hstem⟩
  · rintro ⟨hhashable, start, hstem⟩
    have hcompilable : s.Compilable := {
      complete := hcomplete
      name_text := by
        rw [hname]
        exact Value.isText_orElse hd.name rfl
      description_text := by
        rw [hdescription]
        exact Value.isText_orElse hd.description rfl
      action_hashable := hactions ▸ hhashable }
    exact ⟨_, Registry.compile_eq_document hcompilable hstem⟩
  · intro d' hd' side hside
    obtain ⟨-, start, -, rfl⟩ := Registry.compile_eq_ok_iff.mp hd'
    refine ⟨Registry.conditionLists_ne_nil hcomplete ?_, fun xs hxs => ?_⟩
    · rw [Selection.covers_of_hydrate hs, hside]
    · rw [Registry.eq_of_mem_conditionLists hxs, hfiled side]
      exact Catalog.map_conditions_filed hids (hd.conditions side)

/-- A document about tickets. The urgency is given twice, first by the name of the second attribute
that has the identifier, an age is unknown to the catalog, and the colour is taken back. -/
def ticketDocument : Document where
  name := .text "Tickets"
  resources := [.text "ticket"]
  actions := [.text "read"]
  rules := [{
    id := .text "rule-1-0"
    subject := .text "clerk"
    action := .text "read"
    actionLabel := .text "Read"
    object := .text "ticket"
    subjectConditions := [
      { name := .text "haste", operator := .text "equals", value := .int 1 },
      { name := .text "age", operator := .text "equals", value := .int 30 },
      { name := .text "colour", operator := .text "equals", value := .text "red" },
      { name := .text "labels", operator := .text "includes", value := .list [.text "open"] },
      { name := .text "urgency", operator := .text "", value := .int 5 },
      { name := .text "colour", operator := .text "", value := .null }] }]

/-- The document about tickets has texts where it should. -/
theorem hasTexts_ticketDocument : ticketDocument.HasTexts where
  name := rfl
  description := rfl
  conditions := by
    intro side
    cases side <;> decide

/-- The age and the colour are gone from the document about tickets, and the urgency stands in its
first place with its last value. -/
theorem compile_hydrate_tickets :
    (∀ a ∈ tickets.attributes, a.id.isText = true) ∧ ticketDocument.HasTexts ∧
      ∃ s d', tickets.hydrate ticketDocument = .ok s ∧
        (.text "age" ∈ (s.picks .subject).values.keys ∧ ¬ tickets.Identifies (.text "age")) ∧
        s.isComplete = true ∧ Registry.compile { catalog := tickets } (.unique 7) s = .ok d' ∧
        ticketDocument.covers .subject = true ∧
        ∀ xs ∈ d'.conditionLists .subject, xs.map (fun x => (some x.name, x.value)) =
          [(some (.text "urgency"), .int 5), (some (.text "labels"), .list [.text "open"])] := by
  have hids : ∀ a ∈ tickets.attributes, a.id.isText = true := by decide
  obtain ⟨s, hs, hkeys, hcompile⟩ :=
    compile_hydrate (r := { catalog := tickets }) hids hasTexts_ticketDocument
  have hcomplete : s.isComplete = true := by
    cases hs
    rfl
  obtain ⟨hiff, hconditions⟩ := hcompile hcomplete (.unique 7)
  obtain ⟨d', hd'⟩ := hiff.mpr ⟨by decide, _, rfl⟩
  have hage : ∃ x ∈ ticketDocument.conditionsOn .subject, ¬ tickets.Matches x.name ∧
      x.name = .text "age" := by
    refine ⟨_, List.mem_cons_of_mem _ (List.mem_cons_self ..), ?_, rfl⟩
    simp [Catalog.Matches, tickets, Catalog.ofList]
  exact ⟨hids, hasTexts_ticketDocument, s, d', hs, (hkeys .subject _).2.mpr hage, hcomplete,
    hd', rfl, (hconditions d' hd' .subject rfl).2⟩

end PolicyAuthoring
