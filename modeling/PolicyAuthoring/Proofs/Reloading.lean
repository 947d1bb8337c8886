import PolicyAuthoring.Proofs.Compilation
import PolicyAuthoring.Proofs.RoundTrip
import PolicyAuthoring.Proofs.Storing

/-!
# Loading what was compiled

A document that is compiled from strings and JSON values consists of such, so the file that it is
written to can be loaded again. What is loaded is the document itself exactly if the document is
portable (`Registry.loadDocument_compile_iff`): its floats are written with a point, its texts have
no characters beyond the basic plane, and the names in its values are short enough for keys. A limit
of 1.5 is loaded again (`loadDocument_limit`), and one of 10^16 is not (`not_loadDocument_limit`).
-/

namespace PolicyAuthoring

/-! ## Registries and selections -/

/-- A catalog whose attributes go by texts. -/
def Catalog.TextNames (c : Catalog) : Prop := ∀ entry ∈ c.byId, ∃ s, entry.2.name = .text s

/-- A directory that speaks of actions in texts that are not empty. -/
def Directory.TextLabels (d : Directory) : Prop :=
  ∀ entry ∈ d.actions, ∃ s, s ≠ "" ∧ entry.2.label = .text s

/-- A selection of strings, with picks of values that JSON has a form for. -/
structure Selection.IsJson (s : Selection) : Prop where
  /-- The name is a text. -/
  name : ∃ t, s.name = .text t
  /-- The description is a text. -/
  description : ∃ t, s.description = .text t
  /-- The subject is a text. -/
  subject : ∃ t, s.subject = .text t
  /-- The actions are texts. -/
  actions : ∀ v ∈ s.actions, ∃ t, v = .text t
  /-- The resources are texts. -/
  resources : ∀ v ∈ s.resources, ∃ t, v = .text t
  /-- The additional resources are texts. -/
  additionalResources : ∀ v ∈ s.additionalResources, ∃ t, v = .text t
  /-- The values that are picked have a JSON form. -/
  values : ∀ side, ∀ entry ∈ (s.picks side).values, entry.2.IsJson

/-! ## Compiled documents -/

variable {c : Catalog} {r : Registry} {s : Selection} {stem : Stem} {start : String} {d : Document}

/-- Picks of JSON values make conditions on them. -/
theorem Catalog.TextNames.isJson_of_mem_conditions (hc : c.TextNames) {picks : Picks}
    (hvalues : ∀ entry ∈ picks.values, entry.2.IsJson) :
    ∀ x ∈ c.conditions picks, x.IsJson := by
  intro x hx
  obtain ⟨clause, hclause, rfl⟩ := List.mem_map.mp hx
  obtain ⟨entry, hentry, -, -, -, heq⟩ := mem_clauses_iff.mp hclause
  obtain ⟨indexed, hindexed, hdefinition⟩ := exists_of_mem_clauses hclause
  obtain ⟨name, hname⟩ := hc indexed hindexed
  refine ⟨?_, ⟨_, rfl⟩, ?_⟩
  · rw [Clause.condition, ← hdefinition, hname]
    exact .text name
  · rw [Clause.condition, heq]
    exact hvalues entry hentry

/-- The label of an action is a text, and it is empty only if the action is. -/
theorem Directory.TextLabels.exists_labelOf {d : Directory} (hd : d.TextLabels) {action : Value}
    (haction : ∃ t, action = .text t) :
    (∃ t, d.labelOf .action action = .text t) ∧
      (d.labelOf .action action).orElse action = d.labelOf .action action := by
  rcases d.labelOf_cases .action action with h | ⟨entry, hentry, h⟩
  · rw [h, Value.orElse_self]
    exact ⟨haction, rfl⟩
  · obtain ⟨t, hne, ht⟩ := hd entry hentry
    have htruthy : (Value.text t).truthy = true := by simpa using hne
    rw [h, ht, Value.orElse_of_truthy htruthy]
    exact ⟨⟨t, rfl⟩, rfl⟩

/-- The document of a selection of strings and JSON values has a JSON form. -/
theorem Selection.IsJson.document (hs : s.IsJson) (hnames : r.catalog.TextNames)
    (hlabels : r.directory.TextLabels) (start : String) : (r.document start s).IsJson := by
  have htext {v : Value} (h : ∃ t, v = .text t) : v.IsJson := by
    obtain ⟨t, rfl⟩ := h
    exact .text t
  have hstripped {v : Value} (h : ∃ t, v = .text t) :
      ∃ t, (v.orElse (.text "")).stripped = .text t := by
    obtain ⟨t, rfl⟩ := h
    rw [Value.orElse_text]
    exact ⟨_, rfl⟩
  have hconditions (side : Side) : ∀ x ∈ r.catalog.conditions (s.picks side), x.IsJson :=
    hnames.isJson_of_mem_conditions (hs.values side)
  have hsubject : (s.subject.orElse (.text "")).IsJson := by
    obtain ⟨t, ht⟩ := hs.subject
    rw [ht, Value.orElse_text]
    exact .text t
  have hrules : ∀ rule ∈ (r.document start s).rules, rule.IsJson := by
    intro rule hrule
    obtain ⟨action, haction, resource, hresource, k, rfl⟩ := Registry.exists_of_mem_rules hrule
    obtain ⟨hlabel, horElse⟩ := hlabels.exists_labelOf (hs.actions action haction)
    exact
      { id := .text _
        subject := hsubject
        action := htext (hs.actions action haction)
        label := hlabel
        label_orElse := horElse
        object := htext (hs.resources resource hresource)
        subjectConditions := hconditions .subject
        objectConditions := hconditions .resource
        conditions := nofun }
  exact
    { name := htext (hstripped hs.name)
      description := hstripped hs.description
      subjects := fun v hv => by
        rw [List.mem_singleton.mp hv]
        exact htext hs.subject
      resources := fun v hv => htext (hs.resources v hv)
      actions := fun v hv => htext (hs.actions v hv)
      rules := hrules
      additionalResources := fun a ha => by
        obtain ⟨id, hid, rfl⟩ := List.mem_map.mp ha
        exact ⟨htext (hs.additionalResources id (List.mem_filter.mp hid).1),
          hconditions .additional⟩
      conditions := nofun }

/-- A document that was compiled from strings and JSON values is loaded again from the file that it
is written to exactly if it is portable. -/
theorem Registry.loadDocument_compile_iff (hs : s.IsJson) (hnames : r.catalog.TextNames)
    (hlabels : r.directory.TextLabels) (hd : r.compile stem s = .ok d) :
    ∃ text, d.toJson = .ok text ∧ ∀ (files : Files) (path : String),
      (files.write path (text ++ "\n")).loadDocument path = .ok d ↔ d.toValue.portable = true := by
  obtain ⟨-, start, -, rfl⟩ := compile_eq_ok_iff.mp hd
  exact (hs.document hnames hlabels start).loadDocument_iff

/-! ## Limits -/

/-- The levels, with a label for reading. -/
def levelRegistry : Registry where
  catalog := levels
  directory := { actions := [(.text "read", { id := .text "read", name := .text "Read" })] }

/-- The levels go by texts, and reading is spoken of in one. -/
theorem levelRegistry_spec :
    levelRegistry.catalog.TextNames ∧ levelRegistry.directory.TextLabels := by
  constructor
  · simp [Catalog.TextNames, levelRegistry, levels, Catalog.ofList, Catalog.index, Table.putNew,
      Table.put, Table.contains]
  · intro entry hentry
    obtain rfl := List.mem_singleton.mp hentry
    exact ⟨"Read", by decide, rfl⟩

/-- A selection with a limit on the clearance. -/
def limitSelection (limit : Binary64) : Selection where
  name := .text "Limits"
  subject := .text "clerk"
  actions := [.text "read"]
  resources := [.text "file"]
  subjectPicks := { values := [(.text "clearance", .list [.text "höchstens", .float limit])] }

/-- A selection with a finite limit consists of strings and JSON values, and so does what it is
compiled against. -/
theorem limitSelection_spec {limit : Binary64} (hfinite : limit.units?.isSome = true) :
    (limitSelection limit).IsJson ∧ levelRegistry.catalog.TextNames ∧
      levelRegistry.directory.TextLabels ∧
      levelRegistry.compile (.unique 7) (limitSelection limit) =
        .ok (levelRegistry.document ("rule-" ++ String.ofList (Text.hexDigits 32 7))
          (limitSelection limit)) := by
  refine ⟨?_, levelRegistry_spec.1, levelRegistry_spec.2,
    Registry.compile_eq_document ⟨rfl, rfl, rfl, by simp [limitSelection]⟩ rfl⟩
  refine ⟨⟨_, rfl⟩, ⟨_, rfl⟩, ⟨_, rfl⟩, ?_, ?_, nofun, fun side entry hentry => ?_⟩
  · simp [limitSelection]
  · simp [limitSelection]
  · cases side with
    | subject =>
      cases List.mem_singleton.mp hentry
      refine .list _ ?_
      simp [Value.IsJson.text, Value.IsJson.float limit hfinite]
    | resource => cases hentry
    | additional => cases hentry

/-- A limit of 1.5 is loaded again. -/
theorem loadDocument_limit : ∃ limit : Binary64, limit.units?.isSome = true ∧
    (limitSelection limit).IsJson ∧ levelRegistry.catalog.TextNames ∧
    levelRegistry.directory.TextLabels ∧ ∃ d text,
      levelRegistry.compile (.unique 7) (limitSelection limit) = .ok d ∧ d.toJson = .ok text ∧
      ∀ (files : Files) (path : String),
        (files.write path (text ++ "\n")).loadDocument path = .ok d := by
  have hfinite : (Binary64.ofDecimal false 15 (-1)).units?.isSome = true := by decide +kernel
  obtain ⟨hs, hnames, hlabels, hd⟩ := limitSelection_spec hfinite
  obtain ⟨text, htext, hload⟩ := Registry.loadDocument_compile_iff hs hnames hlabels hd
  refine ⟨_, hfinite, hs, hnames, hlabels, _, text, hd, htext, fun files path => ?_⟩
  exact (hload files path).mpr (by decide +kernel)

/-- A limit of 10^16 is not: it is written without a point. -/
theorem not_loadDocument_limit : ∃ limit : Binary64, limit.units?.isSome = true ∧
    (limitSelection limit).IsJson ∧ levelRegistry.catalog.TextNames ∧
    levelRegistry.directory.TextLabels ∧ ∃ d text,
      levelRegistry.compile (.unique 7) (limitSelection limit) = .ok d ∧ d.toJson = .ok text ∧
      ∀ (files : Files) (path : String),
        (files.write path (text ++ "\n")).loadDocument path ≠ .ok d := by
  have hfinite : (Binary64.ofDecimal false 1 16).units?.isSome = true := by decide +kernel
  obtain ⟨hs, hnames, hlabels, hd⟩ := limitSelection_spec hfinite
  obtain ⟨text, htext, hload⟩ := (hs.document hnames hlabels _).loadDocument_iff
  refine ⟨_, hfinite, hs, hnames, hlabels, _, text, hd, htext, fun files path => ?_⟩
  exact (hload files path).not.mpr (by decide +kernel)

end PolicyAuthoring
