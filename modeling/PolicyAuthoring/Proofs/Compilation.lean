import PolicyAuthoring.Compilation
import PolicyAuthoring.Proofs.Value.Reading
import PolicyAuthoring.Proofs.Value.Strip

/-!
# The document of a selection

Compiling can fail at several places: a part may be missing, the name may be no text, an action may
be no key. `Selection.Compilable` excludes them all and nothing else, and for a compilable selection
`Registry.document` is the document that compiling gives, written down without any failing step:
`compile_eq_ok_iff`.

A policy has conditions on three sides (`Side`). A selection covers the side of the additional
resources only when it names such a resource, since otherwise the document has no place for the
conditions.
-/

namespace PolicyAuthoring

/-! ## Sides -/

/-- What a policy puts conditions on. -/
inductive Side where
  /-- The subject. -/
  | subject
  /-- The resources. -/
  | resource
  /-- The additional resources. -/
  | additional
  deriving DecidableEq

/-- The category of the attributes that belong to a side. -/
def Side.category : Side → Category
  | .subject => .subject
  | .resource => .resource
  | .additional => .additionalResource

namespace Selection

/-- The picks for a side. -/
def picks (s : Selection) : Side → Picks
  | .subject => s.subjectPicks
  | .resource => s.resourcePicks
  | .additional => s.additionalPicks

/-- Whether the documents of a selection have a place for conditions on a side. -/
def covers (s : Selection) : Side → Bool
  | .additional => s.additionalResources.any Value.isNonBlankText
  | _ => true

/-- A selection that can be compiled: nothing is missing, name and description are texts unless they
are missing, and actions can be looked up. -/
structure Compilable (s : Selection) : Prop where
  /-- There are a subject, an action and a resource. -/
  complete : s.isComplete = true
  /-- The name is a text, or counts as missing. -/
  name_text : (s.name.orElse (.text "")).isText = true
  /-- The description is a text, or counts as missing. -/
  description_text : (s.description.orElse (.text "")).isText = true
  /-- Actions can be keys of the directory. -/
  action_hashable : ∀ action ∈ s.actions, action.hashable = true

/-- In a complete selection the subject is not missing, so no text takes its place. -/
theorem orElse_subject {s : Selection} (hs : s.isComplete = true) :
    s.subject.orElse (.text "") = s.subject :=
  Value.orElse_of_truthy ((s.isComplete_iff).mp hs).1 (.text "")

end Selection

/-! ## Compiling without failure -/

/-- How sentences speak of an identifier that can be a key. -/
def Directory.labelOf (d : Directory) (kind : Reference.Kind) (id : Value) : Value :=
  ((d.get? kind id).map Reference.label).getD id

/-- An identifier that can be a key has a label. -/
theorem Directory.label_of_hashable (d : Directory) (kind : Reference.Kind) {id : Value}
    (hid : id.hashable = true) : d.label kind id = .ok (d.labelOf kind id) := by
  rw [label, Value.asKey_of_hashable hid]
  rfl

/-- A label is that of a reference in the directory, or the identifier itself. -/
theorem Directory.labelOf_cases (d : Directory) (kind : Reference.Kind) (id : Value) :
    d.labelOf kind id = id ∨ ∃ entry ∈ d.table kind, d.labelOf kind id = entry.2.label := by
  rw [labelOf, get?, Table.lookup]
  cases hfind : (d.table kind).find? fun entry => entry.1.same id with
  | none => exact Or.inl rfl
  | some entry => exact Or.inr ⟨entry, List.mem_of_find?_eq_some hfind, rfl⟩

namespace Registry

variable {r : Registry} {s : Selection} {stem : Stem} {start : String}

/-- The document of a selection whose rule identifiers start with a text. -/
def document (r : Registry) (start : String) (s : Selection) : Document where
  name := (s.name.orElse (.text "")).stripped
  description := (s.description.orElse (.text "")).stripped
  effect := s.effect
  status := s.status
  subjects := [s.subject]
  resources := s.resources
  actions := s.actions
  rules := r.pairRules start s (s.actions.map fun action =>
    (action, r.directory.labelOf .action action))
  additionalResources := r.attachments s

/-- There is one rule for each pairing of a labelled action with a resource. -/
theorem length_pairRules (r : Registry) (start : String) (s : Selection)
    (labelled : List LabelledAction) :
    (r.pairRules start s labelled).length = labelled.length * s.resources.length := by
  simp [pairRules, List.length_flatMap]

/-- There is one rule for each pairing of an action with a resource. -/
theorem length_rules (r : Registry) (start : String) (s : Selection) :
    (r.document start s).rules.length = s.actions.length * s.resources.length := by
  rw [document, length_pairRules, List.length_map]

/-- There is one attachment for each additional resource that is not blank. -/
theorem ids_attachments (r : Registry) (s : Selection) :
    (r.attachments s).map Attachment.id = s.additionalResources.filter Value.isNonBlankText := by
  rw [attachments, List.map_map]
  exact List.map_id _

/-- A complete selection has a rule. -/
theorem rules_ne_nil (hs : s.isComplete = true) : (r.document start s).rules ≠ [] := by
  obtain ⟨-, hactions, hresources⟩ := (s.isComplete_iff).mp hs
  intro hnil
  -- No rules would mean no action or no resource.
  have hlength := r.length_rules start s
  rw [hnil, List.length_nil, eq_comm, Nat.mul_eq_zero] at hlength
  rcases hlength with h | h
  · rw [List.length_eq_zero_iff.mp h] at hactions
    cases hactions
  · rw [List.length_eq_zero_iff.mp h] at hresources
    cases hresources

/-- Every rule pairs an action with a resource. -/
theorem exists_of_mem_rules {rule : Rule} (hrule : rule ∈ (r.document start s).rules) :
    ∃ action ∈ s.actions, ∃ resource ∈ s.resources, ∃ k : Nat, rule = {
      id := .text (start ++ "-" ++ decimalText k)
      subject := s.subject.orElse (.text "")
      action
      actionLabel := r.directory.labelOf .action action
      object := resource
      subjectConditions := r.catalog.conditions s.subjectPicks
      objectConditions := r.catalog.conditions s.resourcePicks } := by
  rw [document, pairRules, List.mem_map] at hrule
  obtain ⟨⟨⟨labelled, resource⟩, k⟩, hmem, rfl⟩ := hrule
  have hpair := List.mem_map_of_mem (f := Prod.fst) hmem
  rw [List.zipIdx_map_fst] at hpair
  obtain ⟨_, hlabelled, hresource⟩ := List.mem_flatMap.mp hpair
  obtain ⟨_, hresource, heq⟩ := List.mem_map.mp hresource
  obtain ⟨action, haction, rfl⟩ := List.mem_map.mp hlabelled
  cases heq
  exact ⟨action, haction, resource, hresource, k, rfl⟩

/-- All rules are about the subject and carry the same conditions. -/
theorem eq_of_mem_rules {rule : Rule} (hrule : rule ∈ (r.document start s).rules) :
    rule.subject = s.subject.orElse (.text "") ∧
      rule.subjectConditions = r.catalog.conditions s.subjectPicks ∧
      rule.objectConditions = r.catalog.conditions s.resourcePicks ∧ rule.conditions = [] := by
  obtain ⟨-, -, -, -, -, rfl⟩ := exists_of_mem_rules hrule
  exact ⟨rfl, rfl, rfl, rfl⟩

/-- The actions of a selection get their labels if they can be looked up. -/
theorem labelledActions_eq (hactions : ∀ action ∈ s.actions, action.hashable = true) :
    r.labelledActions s =
      .ok (s.actions.map fun action => (action, r.directory.labelOf .action action)) := by
  rw [labelledActions]
  refine mapM_eq_ok fun action haction => ?_
  rw [r.directory.label_of_hashable .action (hactions action haction)]
  rfl

/-- The rules of a complete selection are not empty. -/
theorem rules_ne_nil_of_eq_ok (hs : s.isComplete = true) {rules : List Rule}
    (h : r.rules stem s = .ok rules) : rules ≠ [] := by
  obtain ⟨-, hactions, hresources⟩ := (s.isComplete_iff).mp hs
  rw [Registry.rules, hactions, hresources, if_neg (by simp)] at h
  obtain ⟨start, -, h⟩ := exists_of_bind_eq_ok h
  obtain ⟨labelled, hlabelled, h⟩ := exists_of_bind_eq_ok h
  cases h
  rw [← List.length_pos_iff, length_pairRules, length_of_mapM_eq_ok hlabelled]
  exact Nat.mul_pos (List.length_pos_iff.mpr (List.isEmpty_eq_false_iff.mp hactions))
    (List.length_pos_iff.mpr (List.isEmpty_eq_false_iff.mp hresources))

/-- Compiling a selection that lacks a part says which parts are missing. -/
theorem compile_of_not_isComplete (hs : s.isComplete = false) :
    r.compile stem s = .error (.incomplete s.missingParts) := by
  have hmissing : s.missingParts ≠ [] := fun h => by
    rw [Selection.isComplete, h] at hs
    cases hs
  rw [compile, if_pos hmissing]
  rfl

/-- A complete selection passes both refusals: no part is missing, and its rules are not empty. What
is left are steps on values. -/
theorem compile_of_isComplete (hs : s.isComplete = true) :
    r.compile stem s =
      liftM (r.rules stem s >>= fun rules => assemble s rules (r.attachments s)) := by
  have hmissing : s.missingParts = [] := List.isEmpty_iff.mp hs
  rw [compile, hmissing, if_neg (not_not_intro rfl)]
  cases hrules : r.rules stem s with
  | error cause => rfl
  | ok rules =>
    have hne : rules.isEmpty = false :=
      List.isEmpty_eq_false_iff.mpr (rules_ne_nil_of_eq_ok hs hrules)
    change (if rules.isEmpty = true then _ else _) = _
    rw [hne, if_neg Bool.false_ne_true]
    rfl

/-- A compilable selection is compiled to its document. -/
theorem compile_eq_document (hs : s.Compilable) (hstem : stem.text = .ok start) :
    r.compile stem s = .ok (r.document start s) := by
  obtain ⟨hsubject, hactions, hresources⟩ := (s.isComplete_iff).mp hs.complete
  have hrules : r.rules stem s = .ok (r.document start s).rules := by
    rw [rules, hactions, hresources, hstem, labelledActions_eq hs.action_hashable]
    rfl
  have hassemble : assemble s (r.document start s).rules (r.attachments s) =
      .ok (r.document start s) := by
    rw [assemble, Value.strip_of_isText hs.name_text, Value.strip_of_isText hs.description_text,
      if_pos hsubject]
    rfl
  rw [compile_of_isComplete hs.complete, hrules, ok_bind, hassemble]
  rfl

/-- Compiling succeeds exactly for compilable selections and stems that have a text, and gives the
document of the selection. -/
theorem compile_eq_ok_iff {d : Document} :
    r.compile stem s = .ok d ↔
      s.Compilable ∧ ∃ start, stem.text = .ok start ∧ r.document start s = d := by
  constructor
  · intro h
    have hcompiled := h
    cases hcomplete : s.isComplete with
    | false =>
      rw [compile_of_not_isComplete hcomplete] at h
      cases h
    | true =>
      obtain ⟨-, hactions, hresources⟩ := (s.isComplete_iff).mp hcomplete
      rw [compile_of_isComplete hcomplete, liftM_eq_ok_iff, Registry.rules, hactions, hresources,
        if_neg (by simp)] at h
      -- Every step that can fail has succeeded, and each says one thing about the selection.
      obtain ⟨rules, hrules, hassemble⟩ := exists_of_bind_eq_ok h
      obtain ⟨start, hstem, hrules⟩ := exists_of_bind_eq_ok hrules
      obtain ⟨labelled, hlabelled, -⟩ := exists_of_bind_eq_ok hrules
      rw [assemble] at hassemble
      obtain ⟨name, hname, hassemble⟩ := exists_of_bind_eq_ok hassemble
      obtain ⟨description, hdescription, -⟩ := exists_of_bind_eq_ok hassemble
      have hs : s.Compilable := by
        refine ⟨hcomplete, Value.isText_of_strip hname, Value.isText_of_strip hdescription, ?_⟩
        intro action haction
        obtain ⟨_, hlabel⟩ := exists_of_mapM_eq_ok hlabelled action haction
        obtain ⟨label, hlabel, -⟩ := exists_of_bind_eq_ok hlabel
        obtain ⟨key, hkey, -⟩ := exists_of_bind_eq_ok hlabel
        exact Value.hashable_of_asKey hkey
      refine ⟨hs, start, hstem, ?_⟩
      rw [compile_eq_document hs hstem, Except.ok.injEq] at hcompiled
      exact hcompiled
  · rintro ⟨hs, start, hstem, rfl⟩
    exact compile_eq_document hs hstem

end Registry

end PolicyAuthoring
