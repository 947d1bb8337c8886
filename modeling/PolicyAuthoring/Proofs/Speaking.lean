import PolicyAuthoring.Proofs.Summary
import PolicyAuthoring.Proofs.Value.Guarded

/-!
# What can be said

Selections and documents are read with hardly a demand on what their fields hold, so a sentence
about them may fail. `Registry.CanRender` says of a selection, and `Registry.CanSummarize` of a
document, what a sentence demands of it: identifiers that can be looked up, labels that are texts
where they are put into lower case or joined to others, and operators that can be looked up.
`Registry.guarded_sentence` and `Registry.guarded_summary` show that the sentence is there exactly
if all of this is so.
-/

namespace PolicyAuthoring

/-! ## Words and labels -/

/-- Exactly the texts have a form in lower case. -/
theorem Value.guarded_lower (v : Value) :
    Guarded v.lower (v.isText = true) ShapeFault.IsKindFault := by
  refine ⟨fun h => ⟨_, lower_of_isText h⟩, fun h => ?_⟩
  cases v with
  | text s => exact absurd rfl h
  | unpaired codes => exact absurd rfl h
  | _ => exact ⟨_, rfl, rfl⟩

/-- A word for an operator can be looked up exactly if it can be a key. -/
theorem Operator.guarded_phraseOf (v : Value) :
    Guarded (phraseOf v) (v.hashable = true) ShapeFault.IsKindFault := by
  refine (v.guarded_asKey.bind fun w _ => ?_).congr (iff_of_eq (and_true _))
  split <;> exact Guarded.ok _

/-- An identifier has a label exactly if it can be a key. -/
theorem Directory.guarded_label (d : Directory) (kind : Reference.Kind) (id : Value) :
    Guarded (d.label kind id) (id.hashable = true) ShapeFault.IsKindFault :=
  id.guarded_asKey.bind_ok

namespace Sentence

variable {labels : List Value}

/-- No item is found to be no text exactly if all items are texts. -/
theorem firstNonText?_eq_none_iff (index : Nat) :
    firstNonText? index labels = none ↔ ∀ v ∈ labels, v.isText = true := by
  refine ⟨fun h => ?_, fun h => firstNonText?_eq_none h index⟩
  induction labels generalizing index with
  | nil => simp
  | cons v labels ih =>
    rw [firstNonText?] at h
    split at h
    · next hv => exact List.forall_mem_cons.mpr ⟨hv, ih _ h⟩
    · cases h

/-- Labels that can be joined to a list: before the last of three or more there are only texts. -/
def Joinable (labels : List Value) : Prop :=
  3 ≤ labels.length → ∀ v ∈ labels.dropLast, v.isText = true

/-- Whether labels can be joined depends only on their kinds. -/
theorem joinable_congr {labels' : List Value}
    (h : labels.map Value.kind = labels'.map Value.kind) : Joinable labels ↔ Joinable labels' := by
  have hkinds (labels : List Value) : Joinable labels ↔
      (3 ≤ (labels.map Value.kind).length → ∀ k ∈ (labels.map Value.kind).dropLast, k = .text) := by
    simp [Joinable, Value.isText, ← List.map_dropLast]
  rw [hkinds, hkinds, h]

/-- Labels have a list exactly if they can be joined. -/
theorem guarded_joinLabels (labels : List Value) :
    Guarded (joinLabels labels) (Joinable labels) ShapeFault.IsKindFault := by
  rw [joinLabels.eq_def]
  split
  · exact (Guarded.ok _).congr (iff_of_true trivial fun h => absurd h (by simp))
  · cases hnone : if 3 ≤ labels.length then firstNonText? 0 labels.dropLast else none with
    | none =>
      refine (Guarded.ok _).congr (iff_of_true trivial fun hlength => ?_)
      rw [if_pos hlength] at hnone
      exact (firstNonText?_eq_none_iff 0).mp hnone
    | some found =>
      refine ⟨fun h => ?_, fun _ => ⟨_, rfl, rfl⟩⟩
      -- An item that is no text is found only among three or more.
      split at hnone
      · next hlength =>
        rw [(firstNonText?_eq_none_iff 0).mpr (h hlength)] at hnone
        cases hnone
      · cases hnone

/-- A label can be followed by a remark if it is a text or a list. -/
def Extensible (label : Value) : Prop := label.kind = .text ∨ label.kind = .list

/-- A remark is put after a label exactly if there is none or the label can be followed by one. -/
theorem guarded_withRemark (label : Value) (opening : String) (remark : CodePoints) :
    Guarded (withRemark label opening remark) (remark ≠ [] → Extensible label)
      ShapeFault.IsKindFault := by
  rw [withRemark]
  by_cases hremark : remark = []
  · rw [if_pos hremark]
    exact (Guarded.ok _).congr (iff_of_true trivial fun h => absurd hremark h)
  · rw [if_neg hremark]
    cases label with
    | text | unpaired => exact (Guarded.ok _).congr (iff_of_true trivial fun _ => .inl rfl)
    | list => exact (Guarded.ok _).congr (iff_of_true trivial fun _ => .inr rfl)
    | _ => exact ⟨fun h => absurd (h hremark) (by simp [Extensible, Value.kind]),
        fun _ => ⟨_, rfl, rfl⟩⟩

/-- A remark does not change the kind of a label. -/
theorem kind_of_withRemark {label v : Value} {opening : String}
    {remark : CodePoints}
    (h : withRemark label opening remark = .ok v) : v.kind = label.kind := by
  rw [withRemark] at h
  split at h
  · cases h
    rfl
  · cases label with
    | text | unpaired =>
      cases h
      exact Value.kind_ofCodes _
    | list =>
      cases h
      rfl
    | _ => cases h

/-- What labels are joined to is a text, unless it is a single label that is none. -/
theorem isText_joinLabels {v : Value} (h : joinLabels labels = .ok v) :
    v.isText = true ↔ ∀ label, labels = [label] → label.isText = true := by
  rw [joinLabels.eq_def] at h
  split at h
  · cases h
    exact ⟨fun hv label hlabel => by cases hlabel; exact hv, fun h => h v rfl⟩
  · next hone =>
    split at h
    · cases h
    · cases h
      exact iff_of_true (Value.isText_ofCodes _) fun label hlabel => absurd hlabel (hone label)

end Sentence

/-! ## Selections -/

namespace Registry

open Sentence

variable {r : Registry} {s : Selection}

/-- The clauses that picks make are spoken of exactly if the names of their attributes are texts. -/
theorem guarded_pickPhrases (r : Registry) (picks : Picks) :
    Guarded (r.pickPhrases picks)
      (∀ x ∈ r.catalog.clauses picks, x.definition.displayName.isText = true)
      ShapeFault.IsKindFault :=
  Guarded.mapM fun x _ => x.definition.displayName.guarded_lower.bind_ok

/-- Identifiers that can be listed: they can be looked up, and their labels can be joined. -/
structure CanList (r : Registry) (kind : Reference.Kind) (ids : List Value) : Prop where
  /-- The identifiers can be looked up. -/
  hashable : ∀ id ∈ ids, id.hashable = true
  /-- Their labels can be joined. -/
  joinable : Joinable (ids.map (r.directory.labelOf kind))

/-- The labels of identifiers that can be looked up. -/
theorem mapM_label {kind : Reference.Kind} {ids : List Value}
    (h : ∀ id ∈ ids, id.hashable = true) :
    ids.mapM (r.directory.label kind) = .ok (ids.map (r.directory.labelOf kind)) :=
  mapM_eq_ok fun id hid => r.directory.label_of_hashable kind (h id hid)

/-- Identifiers are listed exactly if they can be. -/
theorem guarded_joinReferences (r : Registry) (kind : Reference.Kind) (ids : List Value) :
    Guarded (r.joinReferences kind ids) (r.CanList kind ids) ShapeFault.IsKindFault := by
  have hlabels : Guarded (ids.mapM (r.directory.label kind)) (∀ id ∈ ids, id.hashable = true)
      ShapeFault.IsKindFault := Guarded.mapM fun id _ => r.directory.guarded_label kind id
  refine (hlabels.bind_of_eq mapM_label (guarded_joinLabels _)).congr ?_
  exact ⟨fun h => ⟨h.1, h.2⟩, fun h => ⟨h.hashable, h.joinable⟩⟩

/-- An action that can be spoken of: it can be looked up, and its label is a text. -/
structure CanName (r : Registry) (action : Value) : Prop where
  /-- The action can be looked up. -/
  hashable : action.hashable = true
  /-- Its label is a text. -/
  text : (r.directory.labelOf .action action).isText = true

/-- Actions are listed exactly if each of them can be spoken of. -/
theorem guarded_joinActions (r : Registry) (ids : List Value) :
    Guarded (r.joinActions ids) (∀ id ∈ ids, r.CanName id) ShapeFault.IsKindFault := by
  refine Guarded.bind_ok (Guarded.mapM fun id _ => ?_)
  refine ((r.directory.guarded_label .action id).bind_of_eq
    (r.directory.label_of_hashable .action) (Value.guarded_lower _)).congr ?_
  exact ⟨fun h => ⟨h.1, h.2⟩, fun h => ⟨h.hashable, h.text⟩⟩

/-- Additional resources that a sentence can speak of: they can be listed, in a text, and so can the
clauses about them. -/
structure CanAttach (r : Registry) (s : Selection) : Prop where
  /-- The resources can be listed. -/
  list : r.CanList .additionalResource s.attached
  /-- If there is only one, its label is a text. -/
  text : ∀ id, s.attached = [id] → (r.directory.labelOf .additionalResource id).isText = true
  /-- The clauses about them can be spoken of. -/
  names : ∀ x ∈ r.catalog.clauses s.additionalPicks, x.definition.displayName.isText = true

/-- The additional resources of a selection are spoken of exactly if there are none or a sentence
can speak of them. -/
theorem guarded_additionalClause (r : Registry) (s : Selection) :
    Guarded (r.additionalClause s) (s.attached ≠ [] → r.CanAttach s) ShapeFault.IsKindFault := by
  -- Joined labels fail the check for a text only as a single label that is none.
  have htext {names : Value} (h : r.joinReferences .additionalResource s.attached = .ok names) :
      ¬ (!names.isText) = true ↔
        ∀ id, s.attached = [id] → (r.directory.labelOf .additionalResource id).isText = true := by
    rw [joinReferences, mapM_label fun id hid =>
      Value.hashable_of_isText (Selection.isText_of_mem_attached hid), ok_bind] at h
    simp only [Bool.not_eq_true', Bool.not_eq_false, isText_joinLabels h, List.map_eq_singleton_iff]
    constructor
    · exact fun h id hid => h _ ⟨id, hid, rfl⟩
    · rintro h _ ⟨id, hid, rfl⟩
      exact h id hid
  rw [additionalClause]
  change Guarded (if s.attached.isEmpty = true then _ else _) _ _
  by_cases hnil : s.attached = []
  · rw [if_pos (List.isEmpty_iff.mpr hnil)]
    exact (Guarded.ok _).congr (iff_of_true trivial fun h => absurd hnil h)
  · rw [if_neg (mt List.isEmpty_iff.mp hnil)]
    refine ((r.guarded_joinReferences .additionalResource s.attached).bind fun names hnames => by
      have hkind : ShapeFault.IsKindFault (.notText names.kind) := rfl
      exact (Guarded.afterCheck hkind (r.guarded_pickPhrases s.additionalPicks).bind_ok).congr
        (and_congr_left' (htext hnames))).congr ?_
    exact ⟨fun h _ => ⟨h.1, h.2.1, h.2.2⟩, fun h => ⟨(h hnil).list, (h hnil).text, (h hnil).names⟩⟩

/-- What the review sentence of a selection demands of it. -/
structure CanRender (r : Registry) (s : Selection) : Prop where
  /-- The subject can be looked up. -/
  subject : (s.subject.orElse (.text "")).hashable = true
  /-- The clauses about the subject can be spoken of. -/
  subject_names : ∀ x ∈ r.catalog.clauses s.subjectPicks, x.definition.displayName.isText = true
  /-- The clauses about the resources can be spoken of. -/
  resource_names : ∀ x ∈ r.catalog.clauses s.resourcePicks, x.definition.displayName.isText = true
  /-- The actions can be spoken of. -/
  actions : ∀ id ∈ s.actions, r.CanName id
  /-- The resources can be listed. -/
  resources : r.CanList .resource s.resources
  /-- If there are additional resources, they can be spoken of. -/
  additional : s.attached ≠ [] → r.CanAttach s

/-- A selection has a review sentence exactly if it fulfils the demands of one. -/
theorem guarded_sentence (r : Registry) (s : Selection) :
    Guarded (r.sentence s) (r.CanRender s) ShapeFault.IsKindFault := by
  refine ((r.directory.guarded_label .subject _).bind fun _ _ =>
    (r.guarded_pickPhrases _).bind fun _ _ => (r.guarded_pickPhrases _).bind fun _ _ =>
    (r.guarded_joinActions _).bind fun _ _ => (r.guarded_joinReferences .resource _).bind fun _ _ =>
    (r.guarded_additionalClause s).bind_ok).congr ?_
  constructor
  · rintro ⟨hsubject, hsubjects, hobjects, hactions, hresources, hadditional⟩
    exact ⟨hsubject, hsubjects, hobjects, hactions, hresources, hadditional⟩
  · rintro ⟨hsubject, hsubjects, hobjects, hactions, hresources, hadditional⟩
    exact ⟨hsubject, hsubjects, hobjects, hactions, hresources, hadditional⟩

/-! ## Documents -/

/-- The name under which a stored condition is spoken of. -/
def storedLabel (r : Registry) (c : Condition) : Value :=
  ((r.catalog.find? c.name).map Attribute.displayName).getD c.name

/-- A stored condition that can be spoken of: its name there is a text, and its operator can be
looked up. -/
structure CanSpeakOf (r : Registry) (c : Condition) : Prop where
  /-- The name is a text. -/
  text : (r.storedLabel c).isText = true
  /-- The operator can be looked up. -/
  operator : c.operator.hashable = true

/-- Stored conditions have a list of phrases exactly if those with a value can be spoken of. -/
theorem guarded_storedPhrases (r : Registry) (conditions : List Condition) :
    Guarded (r.storedPhrases conditions)
      (∀ c ∈ conditions, c.value.isEmpty = false → r.CanSpeakOf c) ShapeFault.IsKindFault := by
  have hphrase (c : Condition) : Guarded (r.storedPhrase c) (r.CanSpeakOf c)
      ShapeFault.IsKindFault := by
    refine ((Value.guarded_lower _).bind fun _ _ =>
      (Operator.guarded_phraseOf c.operator).bind_ok).congr ?_
    exact ⟨fun h => ⟨h.1, h.2⟩, fun h => ⟨h.text, h.operator⟩⟩
  refine (Guarded.bind_ok (Guarded.mapM fun c _ => hphrase c)).congr ?_
  simp only [List.mem_filter, Bool.not_eq_true', and_imp]

/-- The list of phrases is empty exactly if no condition has a value. -/
theorem storedPhrases_eq_nil_iff {conditions : List Condition} {remark : CodePoints}
    (h : r.storedPhrases conditions = .ok remark) :
    remark = [] ↔ ∀ c ∈ conditions, c.value.isEmpty = true := by
  obtain ⟨phrases, hphrases, h⟩ := exists_of_bind_eq_ok h
  cases h
  have hne : ∀ phrase ∈ phrases, phrase ≠ [] := by
    intro phrase hphrase
    obtain ⟨c, -, hc⟩ := exists_of_mem_of_mapM_eq_ok hphrases phrase hphrase
    obtain ⟨label, -, hc⟩ := exists_of_bind_eq_ok hc
    obtain ⟨operator, -, hc⟩ := exists_of_bind_eq_ok hc
    cases hc
    exact conditionPhrase_ne_nil label operator c.value
  have hlength := length_of_mapM_eq_ok hphrases
  rw [joinList_eq_nil_iff hne, ← List.length_eq_zero_iff, hlength, List.length_eq_zero_iff,
    List.filter_eq_nil_iff]
  simp

/-- The label of an identifier with a remark about conditions. -/
def qualified (r : Registry) (kind : Reference.Kind) (id : Value) (opening : String)
    (conditions : List Condition) : Except ShapeFault Value := do
  let label ← r.directory.label kind id
  withRemark label opening (← r.storedPhrases conditions)

/-- An identifier that can be spoken of with conditions: it can be looked up, the conditions that
have a value can be spoken of, and its label can be followed by a remark if there is one. -/
structure CanQualify (r : Registry) (kind : Reference.Kind) (id : Value)
    (conditions : List Condition) : Prop where
  /-- The identifier can be looked up. -/
  hashable : id.hashable = true
  /-- The conditions can be spoken of. -/
  speakable : ∀ c ∈ conditions, c.value.isEmpty = false → r.CanSpeakOf c
  /-- The label can be followed by a remark if there is one. -/
  extensible : (∃ c ∈ conditions, c.value.isEmpty = false) →
    Extensible (r.directory.labelOf kind id)

/-- An identifier is spoken of with conditions exactly if it can be. -/
theorem guarded_qualified (r : Registry) (kind : Reference.Kind) (id : Value) (opening : String)
    (conditions : List Condition) : Guarded (r.qualified kind id opening conditions)
      (r.CanQualify kind id conditions) ShapeFault.IsKindFault := by
  -- There is a remark exactly if one of the conditions has a value.
  have hremark {remark : CodePoints} (h : r.storedPhrases conditions = .ok remark) :
      remark ≠ [] ↔ ∃ c ∈ conditions, c.value.isEmpty = false := by
    rw [ne_eq, storedPhrases_eq_nil_iff h]
    simp
  refine ((r.directory.guarded_label kind id).bind_of_eq (r.directory.label_of_hashable kind)
    ((r.guarded_storedPhrases conditions).bind fun remark h =>
      (guarded_withRemark _ opening remark).congr (imp_congr_left (hremark h)))).congr ?_
  exact ⟨fun h => ⟨h.1, h.2.1, h.2.2⟩, fun h => ⟨h.hashable, h.speakable, h.extensible⟩⟩

/-- An identifier with a remark is of the kind of its label. -/
theorem kind_of_qualified {kind : Reference.Kind} {id v : Value} {opening : String}
    {conditions : List Condition} (h : r.qualified kind id opening conditions = .ok v) :
    v.kind = (r.directory.labelOf kind id).kind := by
  obtain ⟨label, hlabel, h⟩ := exists_of_bind_eq_ok h
  obtain ⟨remark, -, h⟩ := exists_of_bind_eq_ok h
  obtain ⟨key, hkey, -⟩ := exists_of_bind_eq_ok hlabel
  rw [r.directory.label_of_hashable kind (Value.hashable_of_asKey hkey)] at hlabel
  cases hlabel
  exact kind_of_withRemark h

/-- What the phrase for a rule demands of it. -/
structure CanPhrase (r : Registry) (rule : Rule) : Prop where
  /-- The subject can be spoken of with its conditions. -/
  subject : r.CanQualify .subject rule.subject rule.subjectConditions
  /-- The action is shown by a text. -/
  action : (rule.actionLabel.orElse rule.action).isText = true
  /-- The object can be spoken of with its conditions. -/
  object : r.CanQualify .resource rule.object rule.objectConditions

/-- A rule has a phrase exactly if it fulfils the demands of one. -/
theorem guarded_rulePhrase (r : Registry) (rule : Rule) :
    Guarded (r.rulePhrase rule) (r.CanPhrase rule) ShapeFault.IsKindFault := by
  -- Subject and object are spoken of in the same way, so the phrase is that of three steps.
  have hphrase : r.rulePhrase rule = do
      let subject ← r.qualified .subject rule.subject "when " rule.subjectConditions
      let action ← (rule.actionLabel.orElse rule.action).lower
      let object ← r.qualified .resource rule.object "where " rule.objectConditions
      return subject.display ++ " to perform " ++ action ++ " actions on " ++ object.display := by
    simp only [rulePhrase, qualified, bind_assoc]
  rw [hphrase]
  refine ((r.guarded_qualified ..).bind fun _ _ => (Value.guarded_lower _).bind fun _ _ =>
    (r.guarded_qualified ..).bind_ok).congr ?_
  exact ⟨fun h => ⟨h.1, h.2.1, h.2.2⟩, fun h => ⟨h.subject, h.action, h.object⟩⟩

/-- Attachments that can be listed: each can be spoken of with its conditions, and their labels can
be joined. -/
structure CanListAttachments (r : Registry) (attachments : List Attachment) : Prop where
  /-- Each attachment can be spoken of with its conditions. -/
  qualify : ∀ a ∈ attachments, r.CanQualify .additionalResource a.id a.conditions
  /-- The labels can be joined. -/
  joinable : Joinable (attachments.map fun a => r.directory.labelOf .additionalResource a.id)

/-- Attachments are spoken of exactly if they can be listed. -/
theorem guarded_attachmentClause (r : Registry) (opening : String) (attachments : List Attachment) :
    Guarded (r.attachmentClause opening attachments) (r.CanListAttachments attachments)
      ShapeFault.IsKindFault := by
  -- A phrase is of the kind of its label, and only kinds matter for joining.
  have hjoinable {phrases : List Value} (h : attachments.mapM r.attachmentPhrase = .ok phrases) :
      Joinable phrases ↔
        Joinable (attachments.map fun a => r.directory.labelOf .additionalResource a.id) := by
    refine joinable_congr ?_
    rw [List.map_map]
    exact map_of_mapM_eq_ok h fun a _ v hv => kind_of_qualified hv
  rw [attachmentClause]
  by_cases hnil : attachments = []
  · cases hnil
    exact (Guarded.ok _).congr (iff_of_true trivial ⟨by simp, by simp [Joinable]⟩)
  · rw [if_neg (mt List.isEmpty_iff.mp hnil)]
    have hphrases : Guarded (attachments.mapM r.attachmentPhrase)
        (∀ a ∈ attachments, r.CanQualify .additionalResource a.id a.conditions)
        ShapeFault.IsKindFault :=
      Guarded.mapM fun a _ => r.guarded_qualified .additionalResource a.id "" a.conditions
    refine (Guarded.bind_ok (hphrases.bind fun phrases h =>
      ((guarded_joinLabels phrases).congr (hjoinable h)).bind_ok)).congr ?_
    exact ⟨fun h => ⟨h.1, h.2⟩, fun h => ⟨h.qualify, h.joinable⟩⟩

/-- What the summary of a document demands of it. The flat lists are spoken of only if there are no
rules. -/
structure CanSummarize (r : Registry) (d : Document) : Prop where
  /-- Each rule has a phrase. -/
  rules : ∀ rule ∈ d.rules, r.CanPhrase rule
  /-- Without rules the subjects can be listed. -/
  subjects : d.rules = [] → r.CanList .subject d.subjects
  /-- Without rules the actions can be spoken of. -/
  actions : d.rules = [] → ∀ id ∈ d.actions, r.CanName id
  /-- Without rules the resources can be listed. -/
  resources : d.rules = [] → r.CanList .resource d.resources
  /-- The attachments can be listed. -/
  attachments : r.CanListAttachments d.additionalResources

/-- A document has a summary exactly if it fulfils the demands of one. -/
theorem guarded_summary (r : Registry) (d : Document) :
    Guarded (r.summary d) (r.CanSummarize d) ShapeFault.IsKindFault := by
  rw [summary]
  by_cases hnil : d.rules = []
  · rw [if_pos (List.isEmpty_iff.mpr hnil)]
    refine ((r.guarded_joinReferences ..).bind fun _ _ => (r.guarded_joinActions _).bind fun _ _ =>
      (r.guarded_joinReferences ..).bind fun _ _ =>
      (r.guarded_attachmentClause ..).bind_ok).congr ?_
    constructor
    · rintro ⟨hsubjects, hactions, hresources, hattachments⟩
      exact ⟨by simp [hnil], fun _ => hsubjects, fun _ => hactions, fun _ => hresources,
        hattachments⟩
    · rintro ⟨-, hsubjects, hactions, hresources, hattachments⟩
      exact ⟨hsubjects hnil, hactions hnil, hresources hnil, hattachments⟩
  · rw [if_neg (mt List.isEmpty_iff.mp hnil)]
    refine ((Guarded.mapM fun rule _ => r.guarded_rulePhrase rule).bind fun _ _ =>
      (r.guarded_attachmentClause ..).bind_ok).congr ?_
    constructor
    · rintro ⟨hrules, hattachments⟩
      exact ⟨hrules, fun h => absurd h hnil, fun h => absurd h hnil, fun h => absurd h hnil,
        hattachments⟩
    · exact fun h => ⟨h.rules, h.attachments⟩

/-- Cutting a summary to a length demands nothing further. -/
theorem guarded_shortSummary (r : Registry) (maxLength : Int) (d : Document) :
    Guarded (r.shortSummary maxLength d) (r.CanSummarize d) ShapeFault.IsKindFault :=
  (r.guarded_summary d).bind_ok

end Registry

end PolicyAuthoring
