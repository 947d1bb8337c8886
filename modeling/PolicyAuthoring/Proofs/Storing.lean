import PolicyAuthoring.Files
import PolicyAuthoring.Proofs.Rereading
import PolicyAuthoring.Proofs.Yaml.Portable

/-!
# Storing documents

A document is written as JSON and loaded as YAML. Its mapping is a record of records, and what is
read of it is again the mapping of a document (`IsJson.exists_of_reloaded?`, for conditions, rules,
attachments and documents in turn), so loading fails only if YAML refuses the text. Documents that
are read again as themselves differ if their mappings do. Together this gives
`Document.IsJson.loadDocument_iff`: a document is loaded as itself exactly if its mapping is
portable.
-/

namespace PolicyAuthoring

/-! ## What is read -/

namespace Value

variable {v w : Value} {items ws : List Value}

theorem reloadedItems?_nil_eq_some : reloadedItems? [] = some ws ↔ [] = ws := by
  rw [reloadedItems?, Option.some.injEq]

theorem reloadedItems?_cons_eq_some : reloadedItems? (v :: items) = some ws ↔
    ∃ w, v.reloaded? = some w ∧ ∃ rest, reloadedItems? items = some rest ∧ w :: rest = ws := by
  rw [reloadedItems?, Option.bind_eq_some_iff]
  simp only [Option.map_eq_some_iff]

theorem reloaded?_list_eq_some : (list items).reloaded? = some w ↔
    ∃ ws, reloadedItems? items = some ws ∧ .list ws = w := by
  rw [reloaded?, Option.map_eq_some_iff]

theorem reloaded?_text_eq_some {s : String} : (text s).reloaded? = some w ↔
    reloadedText (s.toList.map Char.toNat) = w := by
  rw [reloaded?, Option.some.injEq]

theorem reloaded?_record_eq_some (names : List String) (values : List Value)
    (hnames : names.Nodup) (hportable : ∀ name ∈ names, portableName (.text name) = true)
    (hlength : names.length = values.length) : (record names values).reloaded? = some w ↔
      ∃ ws, reloadedItems? values = some ws ∧ record names ws = w := by
  rw [reloaded?_record names values hnames hportable hlength, Option.map_eq_some_iff]

theorem reloaded?_pair_eq_some {names : List String} {v₁ v₂ : Value} (hnames : names.Nodup)
    (hportable : ∀ name ∈ names, portableName (.text name) = true) (hlength : names.length = 2) :
    (record names [v₁, v₂]).reloaded? = some w ↔
      ∃ w₁ w₂, v₁.reloaded? = some w₁ ∧ v₂.reloaded? = some w₂ ∧ record names [w₁, w₂] = w := by
  rw [reloaded?_record_eq_some names [v₁, v₂] hnames hportable hlength]
  simp only [reloadedItems?_cons_eq_some, reloadedItems?_nil_eq_some]
  constructor
  · rintro ⟨_, ⟨w₁, h₁, _, ⟨w₂, h₂, _, rfl, rfl⟩, rfl⟩, rfl⟩
    exact ⟨w₁, w₂, h₁, h₂, rfl⟩
  · rintro ⟨w₁, w₂, h₁, h₂, rfl⟩
    exact ⟨_, ⟨w₁, h₁, _, ⟨w₂, h₂, _, rfl, rfl⟩, rfl⟩, rfl⟩

theorem plainValue_of_isJson (h : v.IsJson) : Condition.plainValue v = v := by
  cases h <;> rfl

/-- Nothing is read as a tuple. -/
theorem plainValue_of_reloaded? (h : v.IsJson) (hw : v.reloaded? = some w) :
    Condition.plainValue w = w := by
  cases h with
  | float x =>
    rw [reloaded?, Option.some.injEq] at hw
    split at hw <;> subst hw <;> rfl
  | text s =>
    rw [← reloaded?_text_eq_some.mp hw, reloadedText, ofCodes]
    split <;> rfl
  | list items =>
    obtain ⟨ws, -, rfl⟩ := reloaded?_list_eq_some.mp hw
    rfl
  | mapping entries =>
    obtain ⟨es, -, rfl⟩ := Option.map_eq_some_iff.mp hw
    rfl
  | _ =>
    cases hw
    rfl

/-- What is read in a string is empty only if the string is. -/
theorem eq_nil_of_reloadedText {codes : List Nat} (h : (reloadedText codes).truthy = false) :
    codes = [] := by
  have hunits : codes.flatMap Yaml.codeUnits = [] := by
    rw [reloadedText, ofCodes] at h
    split at h
    · simpa [truthy] using h
    · simpa [truthy] using h
  rw [List.flatMap_eq_nil_iff] at hunits
  refine List.eq_nil_iff_forall_not_mem.mpr fun code hcode => ?_
  have hne := hunits code hcode
  rw [Yaml.codeUnits] at hne
  split at hne <;> cases hne

theorem orElse_text (s : String) : (text s).orElse (.text "") = .text s := by
  by_cases h : s = "" <;> simp [orElse, h]

theorem reloadedText_orElse (codes : List Nat) :
    (reloadedText codes).orElse (.text "") = reloadedText codes := by
  rw [orElse]
  split
  · rfl
  next h =>
    rw [Bool.not_eq_true] at h
    rw [eq_nil_of_reloadedText h]
    rfl

/-- If every element is read as one that is read again as itself, so is the list. -/
theorem exists_map_of_reloadedItems? {α : Type} {toValue : α → Value} {reread : α → α}
    {l : List α} (h : ∀ a ∈ l, ∀ w, (toValue a).reloaded? = some w →
      ∃ b, toValue b = w ∧ reread b = b) (hws : reloadedItems? (l.map toValue) = some ws) :
    ∃ bs : List α, bs.map toValue = ws ∧ bs.map reread = bs := by
  induction l generalizing ws with
  | nil => exact ⟨[], reloadedItems?_nil_eq_some.mp hws, rfl⟩
  | cons a l ih =>
    rw [List.forall_mem_cons] at h
    rw [List.map_cons] at hws
    obtain ⟨w, hw, rest, hrest, rfl⟩ := reloadedItems?_cons_eq_some.mp hws
    obtain ⟨b, rfl, hb⟩ := h.1 w hw
    obtain ⟨bs, rfl, hbs⟩ := ih h.2 hrest
    exact ⟨b :: bs, rfl, by rw [List.map_cons, hb, hbs]⟩

end Value

open Value

/-! ## Conditions -/

namespace Condition

/-- A condition on a value that JSON has a form for. -/
structure IsJson (x : Condition) : Prop where
  /-- The name. -/
  name : x.name.IsJson
  /-- The word for the operator is a text. -/
  operator : ∃ s, x.operator = .text s
  /-- The value. -/
  value : x.value.IsJson

variable {x : Condition} {w : Value}

/-- The names of the entries of a condition. -/
def fieldNames : List String := ["name", "operator", "value"]

theorem toValue_eq_record (h : x.IsJson) :
    x.toValue = record fieldNames [x.name, x.operator, x.value] := by
  rw [toValue, plainValue_of_isJson h.value]
  rfl

theorem IsJson.toValue (h : x.IsJson) : x.toValue.IsJson := by
  obtain ⟨s, hs⟩ := h.operator
  rw [toValue_eq_record h, hs]
  refine .record fieldNames (by decide) ?_
  simp [h.name, h.value, Value.IsJson.text]

/-- A condition is read as the mapping of a condition. -/
theorem IsJson.exists_of_reloaded? (h : x.IsJson) (hw : x.toValue.reloaded? = some w) :
    ∃ y : Condition, y.toValue = w ∧ y.reread = y := by
  obtain ⟨s, hs⟩ := h.operator
  rw [toValue_eq_record h, hs,
    reloaded?_record_eq_some fieldNames _ (by decide) (by decide +kernel) rfl] at hw
  obtain ⟨ws, hws, rfl⟩ := hw
  simp only [reloadedItems?_cons_eq_some, reloadedItems?_nil_eq_some, reloaded?_text_eq_some] at hws
  obtain ⟨name, -, _, ⟨_, rfl, _, ⟨value, hvalue, _, rfl, rfl⟩, rfl⟩, rfl⟩ := hws
  have hplain := plainValue_of_reloaded? h.value hvalue
  refine ⟨⟨name, reloadedText (s.toList.map Char.toNat), value⟩, ?_, ?_⟩
  · rw [Condition.toValue, hplain]
    rfl
  · rw [reread, reloadedText_orElse, hplain]

/-- A list of conditions is read as one. -/
theorem exists_of_reloaded?_listToValue {conditions : List Condition}
    (h : ∀ x ∈ conditions, x.IsJson) (hw : (listToValue conditions).reloaded? = some w) :
    ∃ ys : List Condition, listToValue ys = w ∧ ys.map reread = ys := by
  obtain ⟨ws, hws, rfl⟩ := reloaded?_list_eq_some.mp hw
  obtain ⟨ys, rfl, hys⟩ :=
    exists_map_of_reloadedItems? (fun x hx _ hw => (h x hx).exists_of_reloaded? hw) hws
  exact ⟨ys, rfl, hys⟩

/-- A list of conditions has a JSON form. -/
theorem isJson_listToValue {conditions : List Condition} (h : ∀ x ∈ conditions, x.IsJson) :
    (listToValue conditions).IsJson := by
  refine .list _ fun v hv => ?_
  obtain ⟨x, hx, rfl⟩ := List.mem_map.mp hv
  exact (h x hx).toValue

/-- Conditions that JSON has a form for are read again as themselves. -/
theorem map_reread_eq_self {conditions : List Condition} (h : ∀ x ∈ conditions, x.IsJson) :
    conditions.map reread = conditions := by
  refine (List.map_congr_left fun x hx => ?_).trans (List.map_id' _)
  obtain ⟨s, hs⟩ := (h x hx).operator
  rw [reread, plainValue_of_isJson (h x hx).value, hs, orElse_text, ← hs]

end Condition

/-! ## Rules -/

namespace Rule

/-- A rule that JSON has a form for. -/
structure IsJson (rule : Rule) : Prop where
  /-- The identifier. -/
  id : rule.id.IsJson
  /-- The subject. -/
  subject : rule.subject.IsJson
  /-- The action. -/
  action : rule.action.IsJson
  /-- The action goes by a text. -/
  label : ∃ s, rule.actionLabel = .text s
  /-- The label of the action is empty only if the action is. -/
  label_orElse : rule.actionLabel.orElse rule.action = rule.actionLabel
  /-- The object. -/
  object : rule.object.IsJson
  /-- The conditions on the subject. -/
  subjectConditions : ∀ x ∈ rule.subjectConditions, x.IsJson
  /-- The conditions on the object. -/
  objectConditions : ∀ x ∈ rule.objectConditions, x.IsJson
  /-- The further conditions. -/
  conditions : ∀ v ∈ rule.conditions, v.IsJson

variable {rule : Rule} {w : Value}

/-- The names of the entries of a rule. -/
def fieldNames : List String := ["id", "subject", "action", "object", "conditions"]

/-- The names of the entries for the subject of a rule, and for its object. -/
def partNames : List String := ["type", "attributes"]

/-- The names of the entries for the action of a rule. -/
def actionNames : List String := ["name", "displayName"]

theorem part_eq_some {v v' : Value} : (record partNames [v, v']).reloaded? = some w ↔
    ∃ u u', v.reloaded? = some u ∧ v'.reloaded? = some u' ∧ record partNames [u, u'] = w :=
  reloaded?_pair_eq_some (by decide) (by decide +kernel) rfl

theorem actionPart_eq_some {v v' : Value} : (record actionNames [v, v']).reloaded? = some w ↔
    ∃ u u', v.reloaded? = some u ∧ v'.reloaded? = some u' ∧ record actionNames [u, u'] = w :=
  reloaded?_pair_eq_some (by decide) (by decide +kernel) rfl

theorem toValue_eq_record (rule : Rule) :
    rule.toValue = record fieldNames [
      rule.id,
      record partNames [rule.subject, Condition.listToValue rule.subjectConditions],
      record actionNames [rule.action, rule.actionLabel],
      record partNames [rule.object, Condition.listToValue rule.objectConditions],
      .list rule.conditions] := rfl

theorem IsJson.toValue (h : rule.IsJson) : rule.toValue.IsJson := by
  obtain ⟨s, hs⟩ := h.label
  have hpart {v : Value} {conditions : List Condition} (hv : v.IsJson)
      (hconditions : ∀ x ∈ conditions, x.IsJson) :
      (record partNames [v, Condition.listToValue conditions]).IsJson := by
    refine .record partNames (by decide) ?_
    simp [hv, Condition.isJson_listToValue hconditions]
  have haction : (record actionNames [rule.action, .text s]).IsJson := by
    refine .record actionNames (by decide) ?_
    simp [h.action, Value.IsJson.text]
  rw [toValue_eq_record, hs]
  refine .record fieldNames (by decide) ?_
  simp [h.id, hpart h.subject h.subjectConditions, haction, hpart h.object h.objectConditions,
    Value.IsJson.list rule.conditions h.conditions]

/-- A label that is read is empty only if the action that is read is. -/
theorem IsJson.orElse_reloaded (h : rule.IsJson) {s : String} {action : Value}
    (hs : rule.actionLabel = .text s) (haction : rule.action.reloaded? = some action) :
    (reloadedText (s.toList.map Char.toNat)).orElse action =
      reloadedText (s.toList.map Char.toNat) := by
  rw [Value.orElse]
  split
  · rfl
  next hempty =>
    rw [Bool.not_eq_true] at hempty
    have hcodes := eq_nil_of_reloadedText hempty
    have hlabel := h.label_orElse
    rw [List.map_eq_nil_iff, String.toList_eq_nil_iff] at hcodes
    subst hcodes
    rw [hs, Value.orElse, if_neg (by simp)] at hlabel
    rw [hlabel, reloaded?_text_eq_some] at haction
    exact haction.symm

/-- A rule is read as the mapping of a rule. -/
theorem IsJson.exists_of_reloaded? (h : rule.IsJson) (hw : rule.toValue.reloaded? = some w) :
    ∃ rule' : Rule, rule'.toValue = w ∧ rule'.reread = rule' := by
  obtain ⟨s, hs⟩ := h.label
  rw [toValue_eq_record, hs,
    reloaded?_record_eq_some fieldNames _ (by decide) (by decide +kernel) rfl] at hw
  obtain ⟨ws, hws, rfl⟩ := hw
  simp only [reloadedItems?_cons_eq_some, reloadedItems?_nil_eq_some] at hws
  obtain ⟨id, -, _, ⟨subjectPart, hsubject, _, ⟨actionPart, haction, _, ⟨objectPart, hobject, _,
    ⟨conditions, hconditions, _, rfl, rfl⟩, rfl⟩, rfl⟩, rfl⟩, rfl⟩ := hws
  -- The parts of a rule are records themselves.
  obtain ⟨subject, subjectList, -, hsubjectList, rfl⟩ := part_eq_some.mp hsubject
  obtain ⟨object, objectList, -, hobjectList, rfl⟩ := part_eq_some.mp hobject
  obtain ⟨action, label, hname, hlabel, rfl⟩ := actionPart_eq_some.mp haction
  obtain ⟨conditions, -, rfl⟩ := reloaded?_list_eq_some.mp hconditions
  obtain ⟨subjectConditions, rfl, hsubjectConditions⟩ :=
    Condition.exists_of_reloaded?_listToValue h.subjectConditions hsubjectList
  obtain ⟨objectConditions, rfl, hobjectConditions⟩ :=
    Condition.exists_of_reloaded?_listToValue h.objectConditions hobjectList
  have hlabel' : label.orElse action = label := by
    rw [← reloaded?_text_eq_some.mp hlabel]
    exact h.orElse_reloaded hs hname
  refine ⟨⟨id, subject, action, label, object, subjectConditions, objectConditions, conditions⟩,
    rfl, ?_⟩
  rw [reread, hlabel', hsubjectConditions, hobjectConditions]

theorem IsJson.reread_eq_self (h : rule.IsJson) : rule.reread = rule := by
  rw [reread, h.label_orElse, Condition.map_reread_eq_self h.subjectConditions,
    Condition.map_reread_eq_self h.objectConditions]

end Rule

/-! ## Attachments -/

namespace Attachment

/-- An attachment that JSON has a form for. -/
structure IsJson (a : Attachment) : Prop where
  /-- The identifier. -/
  id : a.id.IsJson
  /-- The conditions. -/
  conditions : ∀ x ∈ a.conditions, x.IsJson

variable {a : Attachment} {w : Value}

/-- The names of the entries of an attachment. -/
def fieldNames : List String := ["id", "attributes"]

theorem toValue_eq_record (a : Attachment) :
    a.toValue = record fieldNames [a.id, Condition.listToValue a.conditions] := rfl

theorem IsJson.toValue (h : a.IsJson) : a.toValue.IsJson := by
  rw [toValue_eq_record]
  refine .record fieldNames (by decide) ?_
  simp [h.id, Condition.isJson_listToValue h.conditions]

/-- An attachment is read as the mapping of an attachment. -/
theorem IsJson.exists_of_reloaded? (h : a.IsJson) (hw : a.toValue.reloaded? = some w) :
    ∃ a' : Attachment, a'.toValue = w ∧ a'.reread = a' := by
  rw [toValue_eq_record, reloaded?_pair_eq_some (by decide) (by decide +kernel) rfl] at hw
  obtain ⟨id, conditions, -, hconditions, rfl⟩ := hw
  obtain ⟨conditions, rfl, hreread⟩ :=
    Condition.exists_of_reloaded?_listToValue h.conditions hconditions
  exact ⟨⟨id, conditions⟩, rfl, by rw [reread, hreread]⟩

theorem IsJson.reread_eq_self (h : a.IsJson) : a.reread = a := by
  rw [reread, Condition.map_reread_eq_self h.conditions]

end Attachment

/-! ## Documents -/

namespace Document

/-- A document that JSON has a form for. -/
structure IsJson (d : Document) : Prop where
  /-- The name. -/
  name : d.name.IsJson
  /-- The description is a text. -/
  description : ∃ s, d.description = .text s
  /-- The subjects. -/
  subjects : ∀ v ∈ d.subjects, v.IsJson
  /-- The resources. -/
  resources : ∀ v ∈ d.resources, v.IsJson
  /-- The actions. -/
  actions : ∀ v ∈ d.actions, v.IsJson
  /-- The rules. -/
  rules : ∀ rule ∈ d.rules, rule.IsJson
  /-- The additional resources. -/
  additionalResources : ∀ a ∈ d.additionalResources, a.IsJson
  /-- The further conditions. -/
  conditions : ∀ v ∈ d.conditions, v.IsJson

variable {d : Document} {w : Value}

/-- The names of the entries of a document. -/
def fieldNames : List String :=
  ["name", "description", "effect", "status", "subjects", "resources", "actions", "rules",
    "additionalResources", "conditions"]

theorem toValue_eq_record (d : Document) :
    d.toValue = record fieldNames [
      d.name, d.description, .text d.effect.word, .text d.status.word, .list d.subjects,
      .list d.resources, .list d.actions, .list (d.rules.map Rule.toValue),
      .list (d.additionalResources.map Attachment.toValue), .list d.conditions] := rfl

theorem IsJson.toValue (h : d.IsJson) : d.toValue.IsJson := by
  obtain ⟨s, hs⟩ := h.description
  have hrules : (Value.list (d.rules.map Rule.toValue)).IsJson :=
    .list _ (List.forall_mem_map.mpr fun rule hrule => (h.rules rule hrule).toValue)
  have hattachments : (Value.list (d.additionalResources.map Attachment.toValue)).IsJson :=
    .list _ (List.forall_mem_map.mpr fun a ha => (h.additionalResources a ha).toValue)
  rw [toValue_eq_record, hs]
  refine .record fieldNames (by decide) ?_
  simp [h.name, hrules, hattachments, Value.IsJson.text, Value.IsJson.list _ h.subjects,
    Value.IsJson.list _ h.resources, Value.IsJson.list _ h.actions,
    Value.IsJson.list _ h.conditions]

theorem isBasic_effect (effect : Effect) : Text.isBasic effect.word = true := by
  cases effect <;> decide

theorem isBasic_status (status : Status) : Text.isBasic status.word = true := by
  cases status <;> decide

/-- A document is read as the mapping of a document. -/
theorem IsJson.exists_of_reloaded? (h : d.IsJson) (hw : d.toValue.reloaded? = some w) :
    ∃ d' : Document, d'.toValue = w ∧ d'.reread = d' := by
  obtain ⟨s, hs⟩ := h.description
  rw [toValue_eq_record, hs,
    reloaded?_record_eq_some fieldNames _ (by decide) (by decide +kernel) rfl] at hw
  obtain ⟨ws, hws, rfl⟩ := hw
  simp only [reloadedItems?_cons_eq_some, reloadedItems?_nil_eq_some] at hws
  obtain ⟨name, -, _, ⟨description, hdescription, _, ⟨effect, heffect, _, ⟨status, hstatus, _,
    ⟨subjects, hsubjects, _, ⟨resources, hresources, _, ⟨actions, hactions, _,
    ⟨rules, hrules, _, ⟨attachments, hattachments, _, ⟨conditions, hconditions, _, rfl,
    rfl⟩, rfl⟩, rfl⟩, rfl⟩, rfl⟩, rfl⟩, rfl⟩, rfl⟩, rfl⟩, rfl⟩ := hws
  -- Effect and status are words of the program, which are read as themselves.
  rw [reloaded?_text_eq_some] at hdescription
  rw [reloaded?_text_eq_some, reloadedText_of_isBasic (isBasic_effect d.effect)] at heffect
  rw [reloaded?_text_eq_some, reloadedText_of_isBasic (isBasic_status d.status)] at hstatus
  subst heffect hstatus
  obtain ⟨subjects, -, rfl⟩ := reloaded?_list_eq_some.mp hsubjects
  obtain ⟨resources, -, rfl⟩ := reloaded?_list_eq_some.mp hresources
  obtain ⟨actions, -, rfl⟩ := reloaded?_list_eq_some.mp hactions
  obtain ⟨conditions, -, rfl⟩ := reloaded?_list_eq_some.mp hconditions
  obtain ⟨ruleValues, hruleValues, rfl⟩ := reloaded?_list_eq_some.mp hrules
  obtain ⟨rules, rfl, hrulesReread⟩ := exists_map_of_reloadedItems?
    (fun rule hrule _ hw => (h.rules rule hrule).exists_of_reloaded? hw) hruleValues
  obtain ⟨attachmentValues, hattachmentValues, rfl⟩ := reloaded?_list_eq_some.mp hattachments
  obtain ⟨attachments, rfl, hattachmentsReread⟩ := exists_map_of_reloadedItems?
    (fun a ha _ hw => (h.additionalResources a ha).exists_of_reloaded? hw) hattachmentValues
  have hdescription' : description.orElse (.text "") = description := by
    rw [← hdescription, reloadedText_orElse]
  refine ⟨⟨name, description, d.effect, d.status, subjects, resources, actions, rules, attachments,
    conditions⟩, rfl, ?_⟩
  rw [reread, hdescription', hrulesReread, hattachmentsReread]

/-- A document that JSON has a form for is read again as itself from its mapping. -/
theorem IsJson.reread_eq_self (h : d.IsJson) : d.reread = d := by
  obtain ⟨s, hs⟩ := h.description
  have hrules : d.rules.map Rule.reread = d.rules :=
    (List.map_congr_left fun rule hrule => (h.rules rule hrule).reread_eq_self).trans
      (List.map_id' _)
  have hattachments : d.additionalResources.map Attachment.reread = d.additionalResources :=
    (List.map_congr_left fun a ha => (h.additionalResources a ha).reread_eq_self).trans
      (List.map_id' _)
  rw [reread, hs, orElse_text, ← hs, hrules, hattachments]

/-- Documents that are read again as themselves are equal if their mappings are. -/
theorem eq_of_toValue_eq {d' : Document} (h : d.reread = d) (h' : d'.reread = d')
    (hvalue : d.toValue = d'.toValue) : d = d' := by
  have hread := d.ofValue_toValue
  rw [hvalue, ofValue_toValue, h, h', Except.ok.injEq] at hread
  exact hread.symm

end Document

/-! ## Files -/

namespace Files

variable {files : Files} {path text : String}

/-- A document that is written as YAML reads it is loaded. -/
theorem loadDocument_write {d : Document} (hread : Yaml.read text = .ok d.toValue)
    (hd : d.reread = d) : (files.write path text).loadDocument path = .ok d := by
  have hvalue : (files.write path text).readMapping path = .ok d.toValue := by
    rw [readMapping, lookup_write, Option.map_some, hread]
    rfl
  rw [loadDocument, hvalue, ok_bind, d.ofValue_toValue, hd]
  rfl

/-- A text that YAML refuses is not loaded. -/
theorem loadDocument_write_malformed (hread : Yaml.read text = .error .malformed) :
    (files.write path text).loadDocument path = .error (.load (.unreadable path)) := by
  rw [loadDocument, readMapping, lookup_write, Option.map_some, hread]
  rfl

end Files

/-- A document that JSON has a form for is loaded again from its JSON text as itself exactly if its
mapping is portable. -/
theorem Document.IsJson.loadDocument_iff {d : Document} (h : d.IsJson) :
    ∃ text, d.toJson = .ok text ∧ ∀ (files : Files) (path : String),
      (files.write path (text ++ "\n")).loadDocument path = .ok d ↔ d.toValue.portable = true := by
  obtain ⟨text, htext, hread⟩ := Yaml.exists_read_mapping h.toValue
  refine ⟨text, htext, fun files path => ?_⟩
  change Yaml.read (text ++ "\n") = d.toValue.reloaded?.elim _ _ at hread
  rw [← h.toValue.reloaded?_eq_some_iff]
  cases hreload : d.toValue.reloaded? with
  | none =>
    rw [hreload] at hread
    rw [Files.loadDocument_write_malformed hread]
    exact ⟨nofun, nofun⟩
  | some w =>
    obtain ⟨d', rfl, hd'⟩ := h.exists_of_reloaded? hreload
    rw [hreload] at hread
    rw [Files.loadDocument_write hread hd', Except.ok.injEq, Option.some.injEq]
    exact ⟨congrArg Document.toValue, Document.eq_of_toValue_eq hd' h.reread_eq_self⟩

end PolicyAuthoring
