import PolicyAuthoring.Hydration
import PolicyAuthoring.Proofs.Compilation

/-!
# Storing and rereading documents

A document that is written as a mapping is always read again, and `Document.reread` is what is read:
a missing description or operator is an empty text, an action without a label is labelled by itself,
and a condition on a tuple is one on a list. A selection reopened from what is read differs from one
reopened from the document itself only if some condition does.
-/

namespace PolicyAuthoring

/-! ## What is read again -/

/-- A condition as it is read again. -/
def Condition.reread (x : Condition) : Condition :=
  { x with
    operator := x.operator.orElse (.text "")
    value := plainValue x.value }

/-- A rule as it is read again. -/
def Rule.reread (rule : Rule) : Rule :=
  { rule with
    actionLabel := rule.actionLabel.orElse rule.action
    subjectConditions := rule.subjectConditions.map Condition.reread
    objectConditions := rule.objectConditions.map Condition.reread }

/-- An attachment as it is read again. -/
def Attachment.reread (a : Attachment) : Attachment :=
  { a with conditions := a.conditions.map Condition.reread }

/-- A document as it is read again. -/
def Document.reread (d : Document) : Document :=
  { d with
    description := d.description.orElse (.text "")
    rules := d.rules.map Rule.reread
    additionalResources := d.additionalResources.map Attachment.reread }

/-- The conditions of all rules and attachments of a document. -/
def Document.heldConditions (d : Document) : List Condition :=
  d.rules.flatMap (fun rule => rule.subjectConditions ++ rule.objectConditions) ++
    d.additionalResources.flatMap Attachment.conditions

/-! ## Reading what was written -/

/-- A condition is read again. -/
theorem Condition.ofValue_toValue (x : Condition) : ofValue x.toValue = .ok x.reread := by
  simp only [toValue, ofValue, Value.requiredField_cons_self, Value.field, Value.fieldD_cons_self,
    Value.fieldD_cons_of_ne, ne_eq, String.reduceEq, not_false_eq_true, ok_bind]
  rfl

/-- A list of conditions is read again. -/
theorem Condition.listOfValue_listToValue (conditions : List Condition) :
    listOfValue (listToValue conditions) = .ok (conditions.map reread) := by
  rw [listOfValue, listToValue, Value.itemsIfPresent_list, ok_bind, List.mapM_map]
  exact mapM_eq_ok fun x _ => ofValue_toValue x

/-- A rule is read again. -/
theorem Rule.ofValue_toValue (rule : Rule) : ofValue rule.toValue = .ok rule.reread := by
  simp only [toValue, ofValue, Value.field, Value.fieldD_cons_self, Value.fieldD_cons_of_ne, ne_eq,
    String.reduceEq, not_false_eq_true, ok_bind, Value.orElse, Value.truthy, List.isEmpty_cons,
    Bool.not_false, if_true, Condition.listOfValue_listToValue, Value.itemsIfPresent_list]
  rfl

/-- An attachment is read again. -/
theorem Attachment.ofValue_toValue (a : Attachment) : ofValue a.toValue = .ok a.reread := by
  simp only [toValue, ofValue, Value.isText, Value.field, Value.fieldD_cons_self,
    Value.fieldD_cons_of_ne, ne_eq, String.reduceEq, not_false_eq_true, ok_bind,
    Condition.listOfValue_listToValue]
  rfl

/-- A document is read again. -/
theorem Document.ofValue_toValue (d : Document) : ofValue d.toValue = .ok d.reread := by
  have hrules : (d.rules.map Rule.toValue).mapM Rule.ofValue = .ok (d.rules.map Rule.reread) := by
    rw [List.mapM_map]
    exact mapM_eq_ok fun rule _ => rule.ofValue_toValue
  have hattachments : (d.additionalResources.map Attachment.toValue).mapM Attachment.ofValue =
      .ok (d.additionalResources.map Attachment.reread) := by
    rw [List.mapM_map]
    exact mapM_eq_ok fun a _ => a.ofValue_toValue
  simp only [toValue, ofValue, Value.field, Value.fieldD_cons_self, Value.fieldD_cons_of_ne, ne_eq,
    String.reduceEq, not_false_eq_true, ok_bind, Effect.ofValue_word, Status.ofValue_word,
    Value.itemsIfPresent_list, hrules, hattachments]
  rfl

/-! ## Reopening what was read -/

/-- A document whose conditions are read again unchanged is reopened as the same selection after it
has been read again. -/
theorem Catalog.hydrate_reread (c : Catalog) {d : Document}
    (hdescription : d.description.orElse (.text "") = d.description)
    (hconditions : ∀ x ∈ d.heldConditions, x.reread = x) :
    c.hydrate d.reread = c.hydrate d := by
  have hmap {conditions : List Condition} (h : ∀ x ∈ conditions, x ∈ d.heldConditions) :
      conditions.map Condition.reread = conditions := by
    rw [List.map_congr_left fun x hx => hconditions x (h x hx), List.map_id']
  have hrule : ∀ rule ∈ d.rules, rule.reread.subjectConditions = rule.subjectConditions ∧
      rule.reread.objectConditions = rule.objectConditions := by
    intro rule hrule
    have hheld (x : Condition) (hx : x ∈ rule.subjectConditions ++ rule.objectConditions) :
        x ∈ d.heldConditions :=
      List.mem_append_left _ (List.mem_flatMap.mpr ⟨rule, hrule, hx⟩)
    exact ⟨hmap fun x hx => hheld x (List.mem_append_left _ hx),
      hmap fun x hx => hheld x (List.mem_append_right _ hx)⟩
  have hattachments : d.additionalResources.map Attachment.reread = d.additionalResources := by
    refine (List.map_congr_left fun a ha => ?_).trans (List.map_id' _)
    rw [Attachment.reread, hmap fun x hx =>
      List.mem_append_right _ (List.mem_flatMap.mpr ⟨a, ha, hx⟩)]
  -- Of the rules only the first one counts, and of that one not its label, which may have changed.
  rw [hydrate, hydrate, Document.reread, hattachments, hdescription]
  cases hrules : d.rules with
  | nil => rfl
  | cons rule rest =>
    obtain ⟨hsubject, hobject⟩ := hrule rule (hrules ▸ List.mem_cons_self ..)
    simp only [List.map_cons, hsubject, hobject]
    rfl

/-! ## Conditions of compiled documents -/

/-- Every condition of a document is that of a clause on a side that the selection covers. -/
theorem Registry.exists_clause_of_mem_document {r : Registry} {s : Selection} {start : String}
    {condition : Condition} (h : condition ∈ (r.document start s).heldConditions) :
    ∃ side, s.covers side = true ∧
      ∃ x ∈ r.catalog.clauses (s.picks side), x.condition = condition := by
  rw [Document.heldConditions, List.mem_append, List.mem_flatMap, List.mem_flatMap] at h
  rcases h with ⟨rule, hrule, h⟩ | ⟨a, ha, h⟩
  · obtain ⟨-, hsubject, hobject, -⟩ := eq_of_mem_rules hrule
    rw [hsubject, hobject, List.mem_append] at h
    rcases h with h | h
    · exact ⟨.subject, rfl, List.mem_map.mp h⟩
    · exact ⟨.resource, rfl, List.mem_map.mp h⟩
  · obtain ⟨id, hid, rfl⟩ := List.mem_map.mp ha
    refine ⟨.additional, ?_, List.mem_map.mp h⟩
    rw [Selection.covers, List.any_eq_true]
    exact ⟨id, List.mem_filter.mp hid⟩

end PolicyAuthoring
