import PolicyAuthoring.Proofs.Compilation
import PolicyAuthoring.Proofs.Filing

/-!
# Reopening compiled documents

A document that was compiled against a catalog with distinct identifiers can always be reopened with
that catalog, and `Catalog.reopened` is the selection that comes of it (`hydrate_document`). It is
the selection of the document with its texts stripped, its additional resources sifted, and the
conditions of every side that it covers filed anew. It can be compiled again, and its document is
that of the selection it came from if the covered sides make the same conditions
(`document_reopened`).
-/

namespace PolicyAuthoring

/-- The selection that comes of compiling a selection and reopening its document. -/
def Catalog.reopened (c : Catalog) (s : Selection) : Selection where
  name := (s.name.orElse (.text "")).stripped
  description := (s.description.orElse (.text "")).stripped
  effect := s.effect
  status := s.status
  subject := s.subject
  actions := s.actions
  resources := s.resources
  subjectPicks := c.filed .subject (c.conditions s.subjectPicks)
  resourcePicks := c.filed .resource (c.conditions s.resourcePicks)
  additionalResources := s.additionalResources.filter Value.isNonBlankText
  additionalPicks :=
    if s.covers .additional then c.filed .additionalResource (c.conditions s.additionalPicks)
    else {}

/-! ## Covered sides -/

namespace Selection

/-- The keys of the values on every side are distinct. -/
def Keyed (s : Selection) : Prop := ∀ side, Table.Distinct (s.picks side).values

/-- A selection covers the additional resources if there is one left after sifting. -/
theorem covers_additional (s : Selection) :
    s.covers .additional = !(s.additionalResources.filter Value.isNonBlankText).isEmpty := by
  rw [covers, Bool.eq_iff_iff]
  simp

/-- A selection that does not cover the additional resources has none left after sifting. -/
theorem filter_eq_nil_of_not_covers {s : Selection} (h : s.covers .additional = false) :
    s.additionalResources.filter Value.isNonBlankText = [] := by
  rw [covers_additional, Bool.not_eq_false'] at h
  exact List.isEmpty_iff.mp h

end Selection

variable {r : Registry} {c : Catalog} {s : Selection} {start : String} {side : Side}

/-! ## Reopening without failure -/

/-- The conditions that picks make can be filed. -/
theorem Catalog.Identified.picksOf_conditions (hc : c.Identified) (category : Category)
    (picks : Picks) :
    c.picksOf category (c.conditions picks) = .ok (c.filed category (c.conditions picks)) := by
  refine Catalog.picksOf_eq_filed fun x hx => ?_
  rw [Catalog.conditions, List.mem_map] at hx
  obtain ⟨clause, hclause, rfl⟩ := hx
  exact hc.hashable_filingKey (hc.mem_clauses_iff.mp hclause).1

/-- The document of a complete selection is reopened as the reopened selection. -/
theorem Catalog.Identified.hydrate_document (hc : r.catalog.Identified)
    (hs : s.isComplete = true) :
    r.catalog.hydrate (r.document start s) = .ok (r.catalog.reopened s) := by
  have hsubject := Selection.orElse_subject hs
  -- Reopening looks at the first rule and the first attachment, which are like all others.
  have hne : (r.document start s).rules ≠ [] := Registry.rules_ne_nil hs
  obtain ⟨rule, rest, hrules⟩ := List.exists_cons_of_ne_nil hne
  have hmem : rule ∈ (r.document start s).rules := by
    rw [hrules]
    exact List.mem_cons_self ..
  obtain ⟨hrule, hsubjectConditions, hobjectConditions, -⟩ := Registry.eq_of_mem_rules hmem
  have hattachments : (r.document start s).additionalResources =
      (s.additionalResources.filter Value.isNonBlankText).map fun id =>
        { id, conditions := r.catalog.conditions s.additionalPicks } := rfl
  rw [Catalog.hydrate, hrules, hattachments]
  simp only [hsubjectConditions, hobjectConditions, hc.picksOf_conditions, hrule, hsubject]
  -- Without an attachment nothing is filed on the additional side, whatever was picked for it.
  cases hids : s.additionalResources.filter Value.isNonBlankText with
  | nil =>
    have hcovers : s.covers .additional = false := by
      rw [s.covers_additional, hids]
      rfl
    rw [Catalog.reopened, hcovers, hids]
    rfl
  | cons id ids =>
    have hcovers : s.covers .additional = true := by
      rw [s.covers_additional, hids]
      rfl
    rw [Catalog.reopened, hcovers, hids, List.map_cons, if_pos rfl]
    simp only [hc.picksOf_conditions]
    simp [bind, Except.bind, pure, Except.pure, Registry.document, Function.comp_def]

/-! ## The reopened selection -/

namespace Catalog

/-- Reopening files the conditions of a covered side anew. -/
theorem picks_reopened (h : s.covers side = true) :
    (c.reopened s).picks side = c.filed side.category (c.conditions (s.picks side)) := by
  cases side with
  | subject => rfl
  | resource => rfl
  | additional => exact if_pos h

/-- Reopening leaves nothing on a side that is not covered. -/
theorem picks_reopened_of_not_covers (h : s.covers side = false) :
    (c.reopened s).picks side = {} := by
  cases side with
  | subject => cases h
  | resource => cases h
  | additional => exact if_neg (ne_true_of_eq_false h)

/-- What is left on a side after reopening is about attributes that the names of conditions of the
side find. -/
theorem Identified.exists_of_mem_clauses_reopened (hc : c.Identified) {y : Clause}
    (hy : y ∈ c.clauses ((c.reopened s).picks side)) :
    ∃ x ∈ c.clauses (s.picks side),
      c.resolve? side.category x.definition.name = some y.definition := by
  cases hcovers : s.covers side with
  | true =>
    rw [picks_reopened hcovers] at hy
    exact hc.exists_of_mem_clauses_filed hy
  | false =>
    rw [picks_reopened_of_not_covers hcovers] at hy
    cases hy

/-- The values of a reopened selection have distinct keys. -/
theorem keyed_reopened (c : Catalog) (s : Selection) : (c.reopened s).Keyed := by
  intro side
  cases hcovers : s.covers side with
  | true =>
    rw [picks_reopened hcovers]
    exact Table.distinct_ofEntries _
  | false =>
    rw [picks_reopened_of_not_covers hcovers]
    exact List.Pairwise.nil

/-- A reopened selection can be compiled. -/
theorem compilable_reopened (hs : s.Compilable) : (c.reopened s).Compilable where
  complete := by
    have hcomplete := hs.complete
    rw [Selection.isComplete_iff] at hcomplete ⊢
    exact hcomplete
  name_text := by
    change ((s.name.orElse (.text "")).stripped.orElse (.text "")).isText = true
    rw [Value.orElse_stripped hs.name_text]
    exact Value.isText_stripped hs.name_text
  description_text := by
    change ((s.description.orElse (.text "")).stripped.orElse (.text "")).isText = true
    rw [Value.orElse_stripped hs.description_text]
    exact Value.isText_stripped hs.description_text
  action_hashable := hs.action_hashable

end Catalog

/-- Compiling what was reopened gives the same document if the covered sides make the same
conditions. -/
theorem Registry.document_reopened (hs : s.Compilable)
    (hconditions : ∀ side, s.covers side = true →
      r.catalog.conditions ((r.catalog.reopened s).picks side) =
        r.catalog.conditions (s.picks side)) :
    r.document start (r.catalog.reopened s) = r.document start s := by
  have hrules : ∀ actions, r.pairRules start (r.catalog.reopened s) actions =
      r.pairRules start s actions := by
    intro actions
    rw [pairRules, pairRules]
    have hsubject := hconditions .subject rfl
    have hresource := hconditions .resource rfl
    simp only [Selection.picks] at hsubject hresource
    rw [hsubject, hresource]
    rfl
  have hattachments : r.attachments (r.catalog.reopened s) = r.attachments s := by
    rw [attachments, attachments]
    -- Sifting the additional resources a second time keeps all of them.
    change List.map _ ((s.additionalResources.filter Value.isNonBlankText).filter
      Value.isNonBlankText) = _
    rw [List.filter_filter]
    simp only [Bool.and_self]
    cases hcovers : s.covers .additional with
    | true =>
      have hadditional := hconditions .additional hcovers
      simp only [Selection.picks] at hadditional
      rw [hadditional]
    | false => rw [Selection.filter_eq_nil_of_not_covers hcovers, List.map_nil, List.map_nil]
  have hname : ((r.catalog.reopened s).name.orElse (.text "")).stripped =
      (s.name.orElse (.text "")).stripped := by
    change ((s.name.orElse (.text "")).stripped.orElse (.text "")).stripped = _
    rw [Value.orElse_stripped hs.name_text, Value.stripped_stripped]
  have hdescription : ((r.catalog.reopened s).description.orElse (.text "")).stripped =
      (s.description.orElse (.text "")).stripped := by
    change ((s.description.orElse (.text "")).stripped.orElse (.text "")).stripped = _
    rw [Value.orElse_stripped hs.description_text, Value.stripped_stripped]
  rw [document, document, hrules, hattachments, hname, hdescription]
  rfl

/-! ## Any reopened document -/

/-- The conditions of a document that stand for all those of a side: those of its first rule or of
its first attachment. -/
def Document.conditionsOn (d : Document) : Side → List Condition
  | .subject => (d.rules.head?.map Rule.subjectConditions).getD []
  | .resource => (d.rules.head?.map Rule.objectConditions).getD []
  | .additional => (d.additionalResources.head?.map Attachment.conditions).getD []

/-- The conditions on a side as they stand in each rule, or in each attachment. -/
def Document.conditionLists (d : Document) : Side → List (List Condition)
  | .subject => d.rules.map Rule.subjectConditions
  | .resource => d.rules.map Rule.objectConditions
  | .additional => d.additionalResources.map Attachment.conditions

/-- What stands for the conditions of a side is the first list of them. -/
theorem Document.conditionsOn_eq_headD (d : Document) (side : Side) :
    d.conditionsOn side = (d.conditionLists side).headD [] := by
  cases side <;> simp [conditionsOn, conditionLists, List.headD_eq_head?_getD]

/-- A condition that stands for those of a side is in a rule or in an attachment. -/
theorem Document.exists_of_mem_conditionsOn {d : Document} {x : Condition}
    (hx : x ∈ d.conditionsOn side) : ∃ xs ∈ d.conditionLists side, x ∈ xs := by
  rw [conditionsOn_eq_headD] at hx
  cases hlists : d.conditionLists side with
  | nil =>
    rw [hlists] at hx
    cases hx
  | cons xs rest =>
    rw [hlists] at hx
    exact ⟨xs, List.mem_cons_self .., hx⟩

/-- Every rule or attachment of a document carries the conditions that the picks of the side make.
-/
theorem Registry.eq_of_mem_conditionLists {xs : List Condition}
    (h : xs ∈ (r.document start s).conditionLists side) :
    xs = r.catalog.conditions (s.picks side) := by
  cases side with
  | subject =>
    obtain ⟨rule, hrule, rfl⟩ := List.mem_map.mp h
    exact (eq_of_mem_rules hrule).2.1
  | resource =>
    obtain ⟨rule, hrule, rfl⟩ := List.mem_map.mp h
    exact (eq_of_mem_rules hrule).2.2.1
  | additional =>
    obtain ⟨a, ha, rfl⟩ := List.mem_map.mp h
    obtain ⟨id, -, rfl⟩ := List.mem_map.mp ha
    rfl

/-- The document of a complete selection has a rule, and an attachment if the selection covers the
additional resources. -/
theorem Registry.conditionLists_ne_nil (hs : s.isComplete = true)
    (hside : s.covers side = true) : (r.document start s).conditionLists side ≠ [] := by
  cases side with
  | subject => exact fun h => rules_ne_nil hs (List.map_eq_nil_iff.mp h)
  | resource => exact fun h => rules_ne_nil hs (List.map_eq_nil_iff.mp h)
  | additional =>
    intro h
    rw [Selection.covers_additional, Bool.not_eq_true', List.isEmpty_eq_false_iff] at hside
    exact hside (List.map_eq_nil_iff.mp (List.map_eq_nil_iff.mp h))

/-- Reopening files the conditions of each side and takes over the rest of the document. A side
without rules or attachments has no conditions to be filed. -/
theorem Catalog.hydrate_eq (c : Catalog) (d : Document) :
    c.hydrate d = do
      let subjectPicks ← c.picksOf .subject (d.conditionsOn .subject)
      let resourcePicks ← c.picksOf .resource (d.conditionsOn .resource)
      let additionalPicks ← c.picksOf .additionalResource (d.conditionsOn .additional)
      return {
        name := d.name
        description := d.description
        effect := d.effect
        status := d.status
        subject := (d.rules.head?.map Rule.subject).getD (d.subjects.headD .null)
        actions := d.actions
        resources := d.resources
        subjectPicks, resourcePicks
        additionalResources := d.additionalResources.map Attachment.id
        additionalPicks } := by
  have hnil (category : Category) : c.picksOf category [] = pure {} := rfl
  rw [hydrate]
  cases hrules : d.rules <;> cases hattachments : d.additionalResources <;>
    simp [Document.conditionsOn, hrules, hattachments, hnil]

/-- A document that can be reopened: its conditions can be filed. -/
def Catalog.CanReopen (c : Catalog) (d : Document) : Prop :=
  ∀ side : Side, ∀ x ∈ d.conditionsOn side, (c.filingKey side.category x.name).hashable = true

/-- A document is reopened exactly if it can be. -/
theorem Catalog.guarded_hydrate (c : Catalog) (d : Document) :
    Guarded (c.hydrate d) (c.CanReopen d) ShapeFault.IsKindFault := by
  rw [hydrate_eq]
  refine ((c.guarded_picksOf ..).bind fun _ _ => (c.guarded_picksOf ..).bind fun _ _ =>
    (c.guarded_picksOf ..).bind_ok).congr ?_
  constructor
  · rintro ⟨hsubject, hresource, hadditional⟩ (_ | _ | _)
    exacts [hsubject, hresource, hadditional]
  · exact fun h => ⟨h .subject, h .resource, h .additional⟩

/-- The picks for a side of a reopened document are what its conditions are filed as. -/
theorem Catalog.picksOf_of_hydrate {d : Document} (h : c.hydrate d = .ok s) (side : Side) :
    c.picksOf side.category (d.conditionsOn side) = .ok (s.picks side) := by
  rw [hydrate_eq] at h
  obtain ⟨subjectPicks, hsubject, h⟩ := exists_of_bind_eq_ok h
  obtain ⟨resourcePicks, hresource, h⟩ := exists_of_bind_eq_ok h
  obtain ⟨additionalPicks, hadditional, h⟩ := exists_of_bind_eq_ok h
  cases h
  cases side with
  | subject => exact hsubject
  | resource => exact hresource
  | additional => exact hadditional

/-- Apart from the picks, what comes of reopening a document is taken over from it. -/
theorem Catalog.eq_of_hydrate {d : Document} (h : c.hydrate d = .ok s) :
    s = {
      name := d.name
      description := d.description
      effect := d.effect
      status := d.status
      subject := (d.rules.head?.map Rule.subject).getD (d.subjects.headD .null)
      actions := d.actions
      resources := d.resources
      subjectPicks := s.subjectPicks
      resourcePicks := s.resourcePicks
      additionalResources := d.additionalResources.map Attachment.id
      additionalPicks := s.additionalPicks } := by
  rw [hydrate_eq] at h
  obtain ⟨_, -, h⟩ := exists_of_bind_eq_ok h
  obtain ⟨_, -, h⟩ := exists_of_bind_eq_ok h
  obtain ⟨_, -, h⟩ := exists_of_bind_eq_ok h
  cases h
  rfl

/-- Reopening takes over the name and the description of a document. -/
theorem Catalog.texts_of_hydrate {d : Document} (h : c.hydrate d = .ok s) :
    s.name = d.name ∧ s.description = d.description := by
  rw [eq_of_hydrate h]
  exact ⟨rfl, rfl⟩

/-- The values of a selection that comes of reopening a document have distinct keys. -/
theorem Catalog.keyed_of_hydrate {d : Document} (h : c.hydrate d = .ok s) : s.Keyed :=
  fun side => distinct_of_picksOf (picksOf_of_hydrate h side)

/-! ## A name that leads astray -/

/-- A catalog in which two attributes of subjects have the same name. -/
def grades : Catalog := .ofList [
  { id := .text "clearance", name := .text "level", displayName := .text "Clearance"
    categories := [.text "subject"] },
  { id := .text "grade", name := .text "level", displayName := .text "Grade"
    categories := [.text "subject"] }]

/-- Identifiers make the attributes of the catalog of grades differ. -/
theorem identified_grades : grades.Identified :=
  Catalog.identified_ofList (by decide) (by simp)

/-- A selection with a value for the attribute whose name finds the other one. -/
def gradeSelection : Selection where
  subject := .text "clerk"
  actions := [.text "read"]
  resources := [.text "file"]
  subjectPicks := { values := [(.text "grade", .int 3)] }

/-- The selection of a grade can be compiled. -/
theorem gradeSelection_spec :
    gradeSelection.Compilable ∧ gradeSelection.Keyed := by
  refine ⟨⟨rfl, rfl, rfl, by decide⟩, ?_⟩
  intro side
  cases side <;> simp [gradeSelection, Selection.picks, Table.Distinct]

example : (grades.reopened gradeSelection).subjectPicks.values = [(.text "clearance", .int 3)] := by
  rfl

end PolicyAuthoring
