import PolicyAuthoring.Proofs.NormalForm
import PolicyAuthoring.Proofs.Rereading
import PolicyAuthoring.Proofs.Sentence
import Mathlib.Data.List.Find

/-!
# The summary of a compiled document

The review sentence of a selection and the summary of its document come about in different ways: the
one from identifiers and operators, the other from the names and words that the document holds. The
summary speaks of an attribute under the label of the first attribute of the catalog that answers to
the name in the condition (`storedPhrase_condition`), whatever side the condition is on, so it can
speak of the wrong one.

- `summary_compile`: if every name finds an attribute with the same label, the summary says for each
  rule what the review sentence says when only the action and the resource of the rule are selected,
  and then what there is to say about the additional resources.
- `summary_label_iff`: in a catalog in which no name leads astray on its side, a condition keeps its
  label in the summary exactly when the first attribute with the same name, of any category, has the
  label. This fails for the levels (`summary_levels`).

Both go back to one lemma (`Registry.summary_document`): whatever is said of the stored conditions
of clauses, the summary goes through the pairings and the additional resources with that.
-/

namespace PolicyAuthoring

open Sentence

variable {r : Registry} {c : Catalog} {s : Selection} {stem : Stem} {start : String} {picks : Picks}
  {x : Clause}

/-! ## Directories and identifiers -/

namespace Directory

/-- A directory in which every reference has an identifier and is spoken of by a text. -/
def Legible (d : Directory) : Prop :=
  ∀ kind, ∀ entry ∈ d.table kind, entry.2.id.truthy = true ∧ entry.2.label.isText = true

variable {d : Directory} {kind : Reference.Kind} {id : Value}

/-- An identifier that is a text has a label. -/
theorem label_of_isText (d : Directory) (kind : Reference.Kind) (hid : id.isText = true) :
    d.label kind id = .ok (d.labelOf kind id) :=
  d.label_of_hashable kind (Value.hashable_of_isText hid)

/-- In a legible directory the label of a text is a text. -/
theorem Legible.isText_labelOf (hd : d.Legible) (kind : Reference.Kind) (hid : id.isText = true) :
    (d.labelOf kind id).isText = true := by
  rcases d.labelOf_cases kind id with h | ⟨entry, hentry, h⟩
  · rw [h]
    exact hid
  · rw [h]
    exact (hd kind entry hentry).2

/-- In a legible directory no identifier has a label that counts as missing while the identifier
itself does not. -/
theorem Legible.orElse_labelOf (hd : d.Legible) : (d.labelOf kind id).orElse id =
    d.labelOf kind id := by
  rcases d.labelOf_cases kind id with h | ⟨entry, hentry, h⟩
  · rw [h, Value.orElse_self]
  · have htruthy : entry.2.label.truthy = true := by
      rw [Reference.label, Value.truthy_orElse, Value.truthy_orElse, (hd kind entry hentry).1,
        Bool.or_true, Bool.or_true]
    rw [h, Value.orElse_of_truthy htruthy]

end Directory

namespace Selection

/-- The subject, the actions and the resources of a selection are texts. -/
structure TextIds (s : Selection) : Prop where
  /-- The subject is a text. -/
  subject : s.subject.isText = true
  /-- The actions are texts. -/
  actions : ∀ action ∈ s.actions, action.isText = true
  /-- The resources are texts. -/
  resources : ∀ resource ∈ s.resources, resource.isText = true

/-- The selection with one action, one resource and no additional resource. -/
def only (s : Selection) (action resource : Value) : Selection :=
  { s with actions := [action], resources := [resource], additionalResources := [] }

/-- The additional resources that a selection attaches. -/
def attached (s : Selection) : List Value := s.additionalResources.filter Value.isNonBlankText

/-- The additional resources that a selection attaches are texts. -/
theorem isText_of_mem_attached {id : Value} (hid : id ∈ s.attached) : id.isText = true :=
  Value.isText_of_isNonBlankText (List.mem_filter.mp hid).2

end Selection

/-! ## Phrases of clauses -/

namespace Clause

/-- What is said of a clause when its attribute goes by a label. -/
def phraseAs (x : Clause) (label : CodePoints) : CodePoints :=
  conditionPhrase label x.operator.phrase x.value

/-- What is said of a clause. -/
def phrase (x : Clause) : CodePoints :=
  x.phraseAs (Text.lowerCodes x.definition.displayName.display)

end Clause

namespace Operator

/-- The word of an operator has the phrase of the operator. -/
@[simp]
theorem phraseOf_word (op : Operator) : phraseOf (.text op.word) = .ok op.phrase := by
  cases op <;> rfl

end Operator

/-- The value of a clause is not empty. -/
theorem Catalog.isEmpty_of_mem_clauses (hx : x ∈ c.clauses picks) : x.value.isEmpty = false := by
  obtain ⟨entry, -, hvalue, -, -, heq⟩ := mem_clauses_iff.mp hx
  rw [heq, hvalue]

namespace Registry

/-- A clause about an attribute whose display name is a text has a phrase. -/
theorem clausePhrase_eq (hx : x.definition.displayName.isText = true) :
    clausePhrase x = .ok x.phrase := by
  rw [clausePhrase, Value.lower_of_isText hx]
  rfl

/-- The stored condition of a clause is spoken of under the label of the first attribute that
answers to its name. -/
theorem storedPhrase_condition {b : Attribute}
    (hb : r.catalog.find? x.definition.name = some b) (hname : b.displayName.isText = true) :
    r.storedPhrase x.condition = .ok (x.phraseAs (Text.lowerCodes b.displayName.display)) := by
  have hlabel : ((r.catalog.find? x.condition.name).map Attribute.displayName).getD
      x.condition.name = b.displayName := by
    rw [Clause.condition, hb]
    rfl
  rw [storedPhrase, hlabel, Value.lower_of_isText hname, Clause.condition, Operator.phraseOf_word]
  rfl

end Registry

/-- The name in the condition of a clause finds an attribute that goes by the same label as the
attribute of the clause. -/
def Catalog.NamesLabel (c : Catalog) (x : Clause) : Prop :=
  ∃ b label, c.find? x.definition.name = some b ∧ b.displayName.lower = .ok label ∧
    x.definition.displayName.lower = .ok label

namespace Registry

/-- A stored condition is never spoken of by an empty phrase. -/
theorem ne_nil_of_storedPhrase {condition : Condition} {phrase : CodePoints}
    (h : r.storedPhrase condition = .ok phrase) : phrase ≠ [] := by
  obtain ⟨label, -, h⟩ := exists_of_bind_eq_ok h
  obtain ⟨operator, -, h⟩ := exists_of_bind_eq_ok h
  cases h
  exact conditionPhrase_ne_nil label operator condition.value

/-- A clause whose name finds its label has the same phrase in the review sentence and in the
summary. -/
theorem phrases_of_namesLabel (hx : r.catalog.NamesLabel x) :
    clausePhrase x = .ok x.phrase ∧ r.storedPhrase x.condition = .ok x.phrase := by
  obtain ⟨b, label, hb, hblabel, hxlabel⟩ := hx
  have hbtext := Value.isText_of_lower hblabel
  have hxtext := Value.isText_of_lower hxlabel
  rw [Value.lower_of_isText hbtext] at hblabel
  rw [Value.lower_of_isText hxtext, ← hblabel, Except.ok.injEq] at hxlabel
  refine ⟨clausePhrase_eq hxtext, ?_⟩
  rw [storedPhrase_condition hb hbtext, Clause.phrase, hxlabel]

variable {said : Clause → CodePoints}

/-- What is said of each clause is said of the picks that make them. -/
theorem pickPhrases_eq (hsaid : ∀ x ∈ r.catalog.clauses picks, clausePhrase x = .ok (said x)) :
    r.pickPhrases picks = .ok ((r.catalog.clauses picks).map said) :=
  mapM_eq_ok hsaid

section Phrases

variable (hsaid : ∀ x ∈ r.catalog.clauses picks, r.storedPhrase x.condition = .ok (said x))

include hsaid

/-- What is said of each stored condition is said of the conditions that picks make. -/
theorem storedPhrases_conditions :
    r.storedPhrases (r.catalog.conditions picks) =
      .ok (joinList ((r.catalog.clauses picks).map said)) := by
  -- Conditions are made of values that are not empty, so none is left out.
  have hfilter : ((r.catalog.conditions picks).filter fun x => !x.value.isEmpty) =
      r.catalog.conditions picks := by
    rw [List.filter_eq_self]
    intro d hd
    obtain ⟨x, hx, rfl⟩ := List.mem_map.mp hd
    rw [Clause.condition, Catalog.isEmpty_of_mem_clauses hx]
    rfl
  have hphrases : (r.catalog.conditions picks).mapM r.storedPhrase =
      .ok ((r.catalog.clauses picks).map said) := by
    rw [Catalog.conditions, List.mapM_map]
    exact mapM_eq_ok hsaid
  rw [storedPhrases, hfilter, hphrases]
  rfl

/-- A label followed by what is said of picks is the label with the remark that lists this. -/
theorem withRemark_phrases {label : Value} (hlabel : label.isText = true) (opening : String) :
    withRemark label opening (joinList ((r.catalog.clauses picks).map said)) =
      .ok (label.followedBy
        (phrasesRemark opening ((r.catalog.clauses picks).map said))) := by
  rw [withRemark_of_isText hlabel, phrasesRemark_eq]
  intro phrase hphrase
  obtain ⟨x, hx, rfl⟩ := List.mem_map.mp hphrase
  exact ne_nil_of_storedPhrase (hsaid x hx)

end Phrases

/-! ## Rules and attachments -/

/-- What is said of a pairing of an action with a resource, when this is said of clauses. -/
def pairPhrase (r : Registry) (s : Selection) (said : Clause → CodePoints)
    (action resource : Value) : CodePoints :=
  (r.directory.labelOf .subject s.subject).display ++
    phrasesRemark "when " ((r.catalog.clauses s.subjectPicks).map said) ++
    " to perform " ++ Text.lowerCodes (r.directory.labelOf .action action).display ++ " actions on " ++
    (r.directory.labelOf .resource resource).display ++
    phrasesRemark "where " ((r.catalog.clauses s.resourcePicks).map said)

/-- What is said of an additional resource of a selection, when this is said of clauses. -/
def attachedPhrase (r : Registry) (s : Selection) (said : Clause → CodePoints) (id : Value) :
    CodePoints :=
  (r.directory.labelOf .additionalResource id).display ++
    phrasesRemark "" ((r.catalog.clauses s.additionalPicks).map said)

/-- What is said of the additional resources of a selection, if there are any, when this is said of
clauses. -/
def attachedClause (r : Registry) (s : Selection) (said : Clause → CodePoints) : CodePoints :=
  if s.attached.isEmpty then []
  else " if " ++ joinList (s.attached.map (r.attachedPhrase s said))

section Agreement

variable (hs : s.Compilable) (hids : s.TextIds) (hdirectory : r.directory.Legible)

include hs hids hdirectory

/-- The review sentence of one action and one resource says what is said of their pairing. -/
theorem sentence_only
    (hsaid : ∀ side, s.covers side = true → ∀ x ∈ r.catalog.clauses (s.picks side),
      clausePhrase x = .ok (said x))
    {action resource : Value} (haction : action ∈ s.actions) (hresource : resource ∈ s.resources) :
    r.sentence (s.only action resource) =
      .ok ("This policy " ++ s.effect.verb ++ " " ++ r.pairPhrase s said action resource ++ ".") := by
  have hsubject := Selection.orElse_subject hs.complete
  have hsubjectLabel := r.directory.label_of_isText .subject hids.subject
  have hactionLabel := r.directory.label_of_isText .action (hids.actions action haction)
  have hresourceLabel := r.directory.label_of_isText .resource (hids.resources resource hresource)
  have hlower := Value.lower_of_isText
    (hdirectory.isText_labelOf .action (hids.actions action haction))
  have hactions : r.joinActions [action] =
      .ok (Text.lowerCodes (r.directory.labelOf .action action).display) := by
    rw [joinActions, List.mapM_cons, List.mapM_nil, hactionLabel, ok_bind, hlower]
    rfl
  have hresources : r.joinReferences .resource [resource] =
      .ok (r.directory.labelOf .resource resource) := by
    rw [joinReferences, List.mapM_cons, List.mapM_nil, hresourceLabel]
    rfl
  have hsubjectPhrases : r.pickPhrases s.subjectPicks = .ok _ :=
    pickPhrases_eq (hsaid .subject rfl)
  have hresourcePhrases : r.pickPhrases s.resourcePicks = .ok _ :=
    pickPhrases_eq (hsaid .resource rfl)
  have hadditional : r.additionalClause (s.only action resource) = .ok [] := rfl
  rw [sentence, hadditional]
  simp only [Selection.only, hsubject, hsubjectLabel, hsubjectPhrases, hresourcePhrases, hactions,
    hresources, ok_bind]
  simp only [pairPhrase, List.append_assoc, List.append_nil]
  rfl

variable (hsaid : ∀ side, s.covers side = true → ∀ x ∈ r.catalog.clauses (s.picks side),
  r.storedPhrase x.condition = .ok (said x))

include hsaid

/-- The phrase for a rule that pairs an action with a resource says what is said of their
pairing. -/
theorem rulePhrase_eq {action resource : Value} (haction : action ∈ s.actions)
    (hresource : resource ∈ s.resources) (id : Value) :
    r.rulePhrase {
      id
      subject := s.subject.orElse (.text "")
      action
      actionLabel := r.directory.labelOf .action action
      object := resource
      subjectConditions := r.catalog.conditions s.subjectPicks
      objectConditions := r.catalog.conditions s.resourcePicks } =
        .ok (r.pairPhrase s said action resource) := by
  have hsubject := Selection.orElse_subject hs.complete
  have hsubjectLabel := r.directory.label_of_isText .subject hids.subject
  have hresourceLabel := r.directory.label_of_isText .resource (hids.resources resource hresource)
  have hlower := Value.lower_of_isText
    (hdirectory.isText_labelOf .action (hids.actions action haction))
  have hsubjectPhrases : r.storedPhrases (r.catalog.conditions s.subjectPicks) = .ok _ :=
    storedPhrases_conditions (hsaid .subject rfl)
  have hresourcePhrases : r.storedPhrases (r.catalog.conditions s.resourcePicks) = .ok _ :=
    storedPhrases_conditions (hsaid .resource rfl)
  have hsubjectText := hdirectory.isText_labelOf .subject hids.subject
  have hresourceText := hdirectory.isText_labelOf .resource (hids.resources resource hresource)
  have hsubjectRemark :
      withRemark _ "when " (joinList ((r.catalog.clauses s.subjectPicks).map said)) = .ok _ :=
    withRemark_phrases (hsaid .subject rfl) hsubjectText "when "
  have hresourceRemark : withRemark _ "where "
      (joinList ((r.catalog.clauses s.resourcePicks).map said)) = .ok _ :=
    withRemark_phrases (hsaid .resource rfl) hresourceText "where "
  rw [rulePhrase]
  simp only [hsubject, hsubjectLabel, hsubjectPhrases, hsubjectRemark, hdirectory.orElse_labelOf,
    hlower, hresourceLabel, hresourcePhrases, hresourceRemark, ok_bind]
  rw [Value.display_followedBy, Value.display_followedBy, pairPhrase]
  simp only [List.append_assoc]
  rfl

/-- The phrases for the rules of the document say what is said of the pairings. -/
theorem rulePhrases_eq :
    (r.document start s).rules.mapM r.rulePhrase =
      .ok (s.actions.flatMap fun action => s.resources.map (r.pairPhrase s said action)) := by
  let pairs : List (LabelledAction × Value) :=
    (s.actions.map fun action => (action, r.directory.labelOf .action action)).flatMap fun action =>
      s.resources.map fun resource => (action, resource)
  have hphrases : (r.document start s).rules.mapM r.rulePhrase =
      .ok (pairs.zipIdx.map fun indexed => r.pairPhrase s said indexed.1.1.1 indexed.1.2) := by
    rw [document, pairRules, List.mapM_map]
    refine mapM_eq_ok fun indexed hmem => ?_
    obtain ⟨⟨labelled, resource⟩, k⟩ := indexed
    -- The pairing is of an action of the selection, with its label, and a resource of it.
    have hpair : (labelled, resource) ∈ pairs := by
      have hfst := List.mem_map_of_mem (f := Prod.fst) hmem
      rw [List.zipIdx_map_fst] at hfst
      exact hfst
    obtain ⟨labelled', hlabelled, hresource⟩ := List.mem_flatMap.mp hpair
    obtain ⟨resource', hresource, heq⟩ := List.mem_map.mp hresource
    obtain ⟨action, haction, rfl⟩ := List.mem_map.mp hlabelled
    cases heq
    exact rulePhrase_eq hs hids hdirectory hsaid haction hresource _
  have hfst : pairs.zipIdx.map (fun indexed => r.pairPhrase s said indexed.1.1.1 indexed.1.2) =
      pairs.map fun pair => r.pairPhrase s said pair.1.1 pair.2 := by
    conv => rhs; rw [← List.zipIdx_map_fst 0 pairs]
    rw [List.map_map]
    rfl
  rw [hphrases, hfst, Except.ok.injEq, List.map_flatMap, List.flatMap_map]
  simp only [List.map_map, Function.comp_def]

omit hs hids in
/-- The phrases for the attachments of the document say what is said of each additional
resource. -/
theorem attachmentPhrases_eq (hcovers : s.covers .additional = true) :
    r.attachmentPhrases (r.attachments s) =
      .ok (joinList (s.attached.map (r.attachedPhrase s said))) := by
  have hphrases : r.storedPhrases (r.catalog.conditions s.additionalPicks) = .ok _ :=
    storedPhrases_conditions (hsaid .additional hcovers)
  have htext {id : Value} (hid : id ∈ s.attached) :
      (r.directory.labelOf .additionalResource id).isText = true :=
    hdirectory.isText_labelOf _ (Selection.isText_of_mem_attached hid)
  let remarked (id : Value) : Value := (r.directory.labelOf .additionalResource id).followedBy
    (phrasesRemark "" ((r.catalog.clauses s.additionalPicks).map said))
  have hlabels : (r.attachments s).mapM r.attachmentPhrase = .ok (s.attached.map remarked) := by
    change (s.attached.map _).mapM _ = _
    rw [List.mapM_map]
    refine mapM_eq_ok fun id hid => ?_
    have hlabel := r.directory.label_of_isText .additionalResource
      (Selection.isText_of_mem_attached hid)
    change r.attachmentPhrase { id, conditions := r.catalog.conditions s.additionalPicks } = _
    rw [attachmentPhrase, hlabel, ok_bind, hphrases, ok_bind]
    exact withRemark_phrases (hsaid .additional hcovers) (htext hid) ""
  -- The labels with their remarks are texts, so they are joined as they are displayed.
  obtain ⟨v, hv, -, hdisplay⟩ := joinLabels_of_isText (s.attached.map remarked) (by
    intro v hv
    obtain ⟨id, hid, rfl⟩ := List.mem_map.mp hv
    exact Value.isText_followedBy (htext hid) _)
  have hdisplays : (s.attached.map remarked).map Value.display =
      s.attached.map (r.attachedPhrase s said) := by
    rw [List.map_map]
    exact List.map_congr_left fun id hid => Value.display_followedBy _ _
  rw [attachmentPhrases, hlabels, ok_bind, hv, ok_bind, hdisplay, hdisplays]
  rfl

/-- The summary of the document goes through the pairings and the additional resources, with what is
said of stored conditions. -/
theorem summary_document (start : String) :
    r.summary (r.document start s) =
      .ok ("This policy " ++ s.effect.verb ++ " " ++
        Text.joinCodes "; " (s.actions.flatMap fun action =>
          s.resources.map (r.pairPhrase s said action)) ++
        r.attachedClause s said ++ ".") := by
  have hrules : (r.document start s).rules.isEmpty = false :=
    List.isEmpty_eq_false_iff.mpr (rules_ne_nil hs.complete)
  have hattachments : r.attachmentClause " if " (r.attachments s) =
      .ok (r.attachedClause s said) := by
    rw [attachmentClause, attachedClause]
    cases hcovers : s.covers .additional with
    | true =>
      have hne : s.attached.isEmpty = false := by
        rw [s.covers_additional, Bool.not_eq_true'] at hcovers
        exact hcovers
      have hne' : (r.attachments s).isEmpty = false := by
        rw [attachments, List.isEmpty_map]
        exact hne
      rw [hne, hne', attachmentPhrases_eq hdirectory hsaid hcovers]
      rfl
    | false =>
      have hnil : s.attached = [] := Selection.filter_eq_nil_of_not_covers hcovers
      have hnil' : r.attachments s = [] := by
        rw [attachments, Selection.filter_eq_nil_of_not_covers hcovers, List.map_nil]
      rw [hnil, hnil']
      rfl
  have hadditional : (r.document start s).additionalResources = r.attachments s := rfl
  rw [summary, hrules, if_neg Bool.false_ne_true, summaryOfRules,
    rulePhrases_eq hs hids hdirectory hsaid, ok_bind, hadditional, hattachments]
  rfl

end Agreement

/-- A selection with one action, one resource and nothing to attach is as good as the selection with
no other action and resource and no additional resource. -/
theorem only_alike {action resource : Value} (haction : s.actions = [action])
    (hresource : s.resources = [resource]) (hattached : s.attached = []) :
    (s.only action resource).Alike r.catalog s where
  name := rfl
  description := rfl
  effect := rfl
  status := rfl
  subject := rfl
  actions := haction.symm
  resources := hresource.symm
  additionalResources := hattached.symm
  clauses := fun side hside => by
    cases side with
    | subject => rfl
    | resource => rfl
    | additional => cases hside

end Registry

/-- The summary of a compiled document says for each rule, one after the other, what the review
sentence says when only the action and the resource of the rule are selected and no additional
resource is, and then of each additional resource its label and what is picked for it. With one
action, one resource and no additional resource it is the review sentence. -/
theorem summary_compile (hs : s.Compilable) (hids : s.TextIds) (hdirectory : r.directory.Legible)
    (hnames : ∀ side, s.covers side = true → ∀ x ∈ r.catalog.clauses (s.picks side),
      r.catalog.NamesLabel x)
    (hstem : stem.text = .ok start) :
    ∃ (d : Document) (body : Value → Value → CodePoints) (phrases : List CodePoints),
      r.compile stem s = .ok d ∧
      (∀ action ∈ s.actions, ∀ resource ∈ s.resources, r.sentence (s.only action resource) =
        .ok ("This policy " ++ s.effect.verb ++ " " ++ body action resource ++ ".")) ∧
      (s.attached.isEmpty = false → r.pickPhrases s.additionalPicks = .ok phrases) ∧
      r.summary d = .ok ("This policy " ++ s.effect.verb ++ " " ++
        Text.joinCodes "; " (s.actions.flatMap fun action => s.resources.map (body action)) ++
        (if s.attached.isEmpty then ([] : CodePoints)
          else " if " ++ joinList (s.attached.map fun id =>
            (r.directory.labelOf .additionalResource id).display ++
              Registry.phrasesRemark "" phrases)) ++ ".") ∧
      (s.actions.length = 1 → s.resources.length = 1 → s.attached.isEmpty = true →
        r.summary d = r.sentence s) := by
  have hphrases side (hside : s.covers side = true) x
      (hx : x ∈ r.catalog.clauses (s.picks side)) :=
    Registry.phrases_of_namesLabel (hnames side hside x hx)
  have hsaid side (hside : s.covers side = true) x (hx : x ∈ r.catalog.clauses (s.picks side)) :=
    (hphrases side hside x hx).1
  have hsummary := Registry.summary_document hs hids hdirectory
    (fun side hside x hx => (hphrases side hside x hx).2) start
  have honly {action resource : Value} (haction : action ∈ s.actions)
      (hresource : resource ∈ s.resources) :=
    Registry.sentence_only hs hids hdirectory hsaid haction hresource
  refine ⟨_, r.pairPhrase s Clause.phrase, (r.catalog.clauses s.additionalPicks).map Clause.phrase,
    Registry.compile_eq_document hs hstem,
    fun action haction resource hresource => honly haction hresource, fun hattached => ?_,
    hsummary, fun hactions hresources hattached => ?_⟩
  · have hcovers : s.covers .additional = true := by
      rw [s.covers_additional, Bool.not_eq_true']
      exact hattached
    exact Registry.pickPhrases_eq (hsaid .additional hcovers)
  · obtain ⟨action, haction⟩ := List.length_eq_one_iff.mp hactions
    obtain ⟨resource, hresource⟩ := List.length_eq_one_iff.mp hresources
    rw [List.isEmpty_iff] at hattached
    have hmemAction : action ∈ s.actions := by
      rw [haction]
      exact List.mem_singleton_self _
    have hmemResource : resource ∈ s.resources := by
      rw [hresource]
      exact List.mem_singleton_self _
    rw [← Registry.sentence_congr (Registry.only_alike haction hresource hattached),
      honly hmemAction hmemResource, hsummary, Registry.attachedClause, hattached, haction,
      hresource]
    simp

/-- A registry with two attributes of the same name that sentences do not tell apart, and with names
for an action and an additional resource. -/
def gradedRegistry : Registry where
  catalog := .ofList [
    { id := .text "secrecy", name := .text "level", displayName := .text "LEVEL"
      categories := [.text "resource"] },
    { id := .text "clearance", name := .text "level", displayName := .text "Level"
      categories := [.text "subject"] }]
  directory := {
    actions := Directory.index [{ id := .text "read", displayName := .text "Read all of" }]
    additionalResources := Directory.index [{ id := .text "archive", name := .text "Archive" }] }

/-- The summary of the selection of levels says what the review sentence said, although one of its
conditions is spoken of under the label of another attribute. -/
theorem summary_compile_graded :
    levelSelection.Compilable ∧ levelSelection.TextIds ∧ gradedRegistry.directory.Legible ∧
      (∀ side, levelSelection.covers side = true →
        ∀ x ∈ gradedRegistry.catalog.clauses (levelSelection.picks side),
          gradedRegistry.catalog.NamesLabel x) ∧
      ∃ d body, gradedRegistry.compile (.unique 7) levelSelection = .ok d ∧
        gradedRegistry.sentence (levelSelection.only (.text "read") (.text "file")) =
          .ok ("This policy ALLOWS " ++ body ++ ".") ∧
        gradedRegistry.summary d = .ok ("This policy ALLOWS " ++ body ++ " if Archive.") := by
  obtain ⟨hs, -, -⟩ := levelSelection_spec
  have hids : levelSelection.TextIds := ⟨rfl, by decide, by decide⟩
  have hdirectory : gradedRegistry.directory.Legible := by
    intro kind entry hentry
    cases kind with
    | subject => cases hentry
    | resource => cases hentry
    | action =>
      cases List.mem_singleton.mp hentry
      exact ⟨rfl, rfl⟩
    | additionalResource =>
      cases List.mem_singleton.mp hentry
      exact ⟨rfl, rfl⟩
  have hnames : ∀ side, levelSelection.covers side = true →
      ∀ x ∈ gradedRegistry.catalog.clauses (levelSelection.picks side),
        gradedRegistry.catalog.NamesLabel x := by
    intro side _ x hx
    cases side with
    | subject =>
      cases List.mem_singleton.mp hx
      exact ⟨_, "level", rfl, eq_ok_of_toOption_eq_some (by decide +kernel),
        eq_ok_of_toOption_eq_some (by decide +kernel)⟩
    | resource =>
      cases List.mem_singleton.mp hx
      exact ⟨_, "level", rfl, eq_ok_of_toOption_eq_some (by decide +kernel),
        eq_ok_of_toOption_eq_some (by decide +kernel)⟩
    | additional => cases hx
  have hstem : (Stem.unique 7).text = .ok _ := rfl
  obtain ⟨d, body, phrases, hd, hsentence, hphrases, hsummary, -⟩ :=
    summary_compile hs hids hdirectory hnames hstem
  refine ⟨hs, hids, hdirectory, hnames, d, body (.text "read") (.text "file"), hd, ?_, ?_⟩
  · exact hsentence _ (List.mem_singleton_self _) _ (List.mem_singleton_self _)
  · have hnil : phrases = [] := (Except.ok.inj (hphrases rfl)).symm
    have hend : Text.codes " if Archive." = Text.codes " if Archive" ++ Text.codes "." := rfl
    have hpairs : (levelSelection.actions.flatMap fun action =>
        levelSelection.resources.map (body action)) = [body (.text "read") (.text "file")] := rfl
    rw [hsummary, hpairs, Text.joinCodes_singleton, hnil, hend, ← List.append_assoc]
    rfl

/-! ## Labels in the summary -/

/-- The first attribute with the name of a clause, of any category. -/
def Catalog.firstNamed? (c : Catalog) (x : Clause) : Option Attribute :=
  c.attributes.find? fun a => a.name.equals x.definition.name

/-- In a catalog in which no name is the identifier of another attribute, the name of an attribute
finds the first attribute with this name. -/
theorem Catalog.Unambiguous.find?_name (hc : c.Unambiguous) (hx : x.definition ∈ c.attributes) :
    c.find? x.definition.name = c.firstNamed? x := by
  rw [find?, firstNamed?]
  refine List.find?_congr fun a ha => ?_
  cases hid : a.id.equals x.definition.name with
  | false => exact Bool.or_false _
  | true =>
    rw [Value.equals_iff_of_isText (hc.id_text a ha)] at hid
    rw [← hc.name_ne_id _ hx a ha hid.symm, hc.name_self _ hx]
    rfl

/-- What the summary says of a clause: what is said of it when its attribute goes by the label of
the first attribute with the same name. -/
def Catalog.storedPhraseOf (c : Catalog) (x : Clause) : CodePoints :=
  x.phraseAs (((c.firstNamed? x).map fun a => Text.lowerCodes a.displayName.display).getD [])

/-- A list of conditions that a document has for a side holds conditions of the document. -/
theorem Document.mem_heldConditions {d : Document} {side : Side} {xs : List Condition}
    (hxs : xs ∈ d.conditionLists side) {condition : Condition} (h : condition ∈ xs) :
    condition ∈ d.heldConditions := by
  rw [heldConditions, List.mem_append, List.mem_flatMap, List.mem_flatMap]
  cases side with
  | subject =>
    obtain ⟨rule, hrule, rfl⟩ := List.mem_map.mp hxs
    exact .inl ⟨rule, hrule, List.mem_append_left _ h⟩
  | resource =>
    obtain ⟨rule, hrule, rfl⟩ := List.mem_map.mp hxs
    exact .inl ⟨rule, hrule, List.mem_append_right _ h⟩
  | additional =>
    obtain ⟨a, ha, rfl⟩ := List.mem_map.mp hxs
    exact .inr ⟨a, ha, h⟩

/-- The document of a complete selection holds the condition of every clause of a covered side. -/
theorem Registry.condition_mem_document (hs : s.isComplete = true) {side : Side}
    (hside : s.covers side = true) (hx : x ∈ r.catalog.clauses (s.picks side)) :
    x.condition ∈ (r.document start s).heldConditions := by
  have hne : (r.document start s).conditionLists side ≠ [] := conditionLists_ne_nil hs hside
  obtain ⟨xs, hxs⟩ := List.exists_mem_of_ne_nil _ hne
  refine Document.mem_heldConditions hxs ?_
  rw [eq_of_mem_conditionLists hxs]
  exact List.mem_map_of_mem hx

/-- In a catalog in which no name leads astray on its side, the clause of every condition of a
compiled document is spoken of in the summary under the label of the first attribute of the catalog
with the same name, of whatever category. The condition keeps the label that the review sentence
gives it exactly when that attribute goes by the label. So, for identifiers and labels that are
texts, the summary says what the review sentences of the pairings say, except that every clause is
spoken of under this label. -/
theorem summary_label_iff (hc : r.catalog.Unambiguous) (hs : s.Compilable)
    (htext : ∀ a ∈ r.catalog.attributes, a.displayName.isText = true)
    (hstem : stem.text = .ok start) :
    ∃ d, r.compile stem s = .ok d ∧
      (∀ side, s.covers side = true → ∀ x ∈ r.catalog.clauses (s.picks side),
        x.condition ∈ d.heldConditions ∧ Registry.clausePhrase x = .ok x.phrase ∧
        ∃ a, r.catalog.firstNamed? x = some a ∧
          r.catalog.storedPhraseOf x = x.phraseAs (Text.lowerCodes a.displayName.display) ∧
          r.storedPhrase x.condition = .ok (r.catalog.storedPhraseOf x) ∧
          (r.storedPhrase x.condition = Registry.clausePhrase x ↔
            Text.lowerCodes a.displayName.display =
              Text.lowerCodes x.definition.displayName.display)) ∧
      (∀ condition ∈ d.heldConditions, ∃ side, s.covers side = true ∧
        ∃ x ∈ r.catalog.clauses (s.picks side), x.condition = condition) ∧
      (s.TextIds → r.directory.Legible →
        (∀ action ∈ s.actions, ∀ resource ∈ s.resources, r.sentence (s.only action resource) =
          .ok ("This policy " ++ s.effect.verb ++ " " ++
            r.pairPhrase s Clause.phrase action resource ++ ".")) ∧
        r.summary d = .ok ("This policy " ++ s.effect.verb ++ " " ++
          Text.joinCodes "; " (s.actions.flatMap fun action =>
            s.resources.map (r.pairPhrase s r.catalog.storedPhraseOf action)) ++
          (if s.attached.isEmpty then ([] : CodePoints)
            else " if " ++ joinList (s.attached.map
              (r.attachedPhrase s r.catalog.storedPhraseOf))) ++ ".")) := by
  have hphrase side x (hx : x ∈ r.catalog.clauses (s.picks side)) :
      Registry.clausePhrase x = .ok x.phrase :=
    Registry.clausePhrase_eq (htext _ (hc.toIdentified.mem_clauses_iff.mp hx).1)
  -- The attribute of a clause has the name, so there is a first one.
  have hstored side x (hx : x ∈ r.catalog.clauses (s.picks side)) :
      ∃ a, r.catalog.firstNamed? x = some a ∧
        r.catalog.storedPhraseOf x = x.phraseAs (Text.lowerCodes a.displayName.display) ∧
        r.storedPhrase x.condition = .ok (r.catalog.storedPhraseOf x) := by
    have hmem := (hc.toIdentified.mem_clauses_iff.mp hx).1
    have hfirst : (r.catalog.firstNamed? x).isSome = true :=
      List.find?_isSome.mpr ⟨x.definition, hmem, hc.name_self _ hmem⟩
    obtain ⟨a, ha⟩ := Option.isSome_iff_exists.mp hfirst
    have heq : r.catalog.storedPhraseOf x =
        x.phraseAs (Text.lowerCodes a.displayName.display) := by
      rw [Catalog.storedPhraseOf, ha]
      rfl
    refine ⟨a, ha, heq, ?_⟩
    rw [heq]
    exact Registry.storedPhrase_condition ((hc.find?_name hmem).trans ha)
      (htext a (List.mem_of_find?_eq_some ha))
  refine ⟨_, Registry.compile_eq_document hs hstem, fun side hside x hx => ?_,
    fun condition hcondition => Registry.exists_clause_of_mem_document hcondition,
    fun hids hdirectory => ⟨fun action haction resource hresource => ?_, ?_⟩⟩
  · obtain ⟨a, ha, heq, hsaid⟩ := hstored side x hx
    refine ⟨Registry.condition_mem_document hs.complete hside hx, hphrase side x hx, a, ha, heq,
      hsaid, ?_⟩
    rw [hsaid, heq, hphrase side x hx, Except.ok.injEq]
    exact conditionPhrase_inj
  · exact Registry.sentence_only hs hids hdirectory (fun side _ => hphrase side) haction hresource
  · refine Registry.summary_document hs hids hdirectory (fun side _ x hx => ?_) start
    obtain ⟨a, -, -, hsaid⟩ := hstored side x hx
    exact hsaid

/-- The condition on the clearance in the document of the selection of levels. -/
def clearanceCondition : Condition :=
  { name := .text "level", operator := .text "in", value := .list [.int 2, .int 3] }

/-- The condition on the clearance does not keep its label: secrecy has the same name and comes
first, and so the summary says secrecy for both. -/
theorem summary_label_iff_levels :
    levels.Unambiguous ∧ levelSelection.Compilable ∧
      (∀ a ∈ levels.attributes, a.displayName.isText = true) ∧
      ∃ d, Registry.compile { catalog := levels } (.unique 7) levelSelection = .ok d ∧
        (∃ x ∈ levels.clauses levelSelection.subjectPicks,
          x.condition = clearanceCondition ∧ x.condition ∈ d.heldConditions ∧
            x.definition.displayName = .text "Clearance" ∧
            Registry.storedPhrase { catalog := levels } x.condition ≠ Registry.clausePhrase x) ∧
        Registry.summary { catalog := levels } d =
          .ok ("This policy ALLOWS clerk (when secrecy is one of 2 or 3) to perform read " ++
            "actions on file (where secrecy is low) if archive.") := by
  obtain ⟨hs, -, -⟩ := levelSelection_spec
  have htext : ∀ a ∈ levels.attributes, a.displayName.isText = true := by decide
  have hstem : (Stem.unique 7).text = .ok _ := rfl
  obtain ⟨d, hd, hlabels, -, htexts⟩ :=
    summary_label_iff (r := { catalog := levels }) unambiguous_levels hs htext hstem
  refine ⟨unambiguous_levels, hs, htext, d, hd, ?_, ?_⟩
  · obtain ⟨x, hx⟩ : ∃ x, levels.clauses levelSelection.subjectPicks = [x] := ⟨_, rfl⟩
    have hmem : x ∈ levels.clauses levelSelection.subjectPicks := hx ▸ List.mem_singleton_self x
    obtain ⟨hheld, -, a, ha, -, -, hiff⟩ := hlabels .subject rfl x hmem
    cases hx
    cases ha
    refine ⟨_, hmem, rfl, hheld, rfl, fun hsame => ?_⟩
    exact absurd (hiff.mp hsame) (by decide +kernel)
  · have hids : levelSelection.TextIds := ⟨rfl, by decide, by decide⟩
    have hlegible : Directory.Legible {} := by
      intro kind entry hentry
      cases kind <;> cases hentry
    rw [(htexts hids hlegible).2]
    exact congrArg Except.ok (by decide +kernel)

/-- In the catalog of levels the summary speaks of the clearance of the subject as its secrecy. -/
theorem summary_levels :
    levels.Unambiguous ∧ levelSelection.Compilable ∧ levelSelection.Placed levels ∧
      ∃ d, Registry.compile { catalog := levels } (.unique 7) levelSelection = .ok d ∧
        Registry.sentence { catalog := levels } levelSelection =
          .ok ("This policy ALLOWS clerk (when clearance is one of 2 or 3) to perform read " ++
            "actions on file (where secrecy is low) if archive.") ∧
        Registry.summary { catalog := levels } d =
          .ok ("This policy ALLOWS clerk (when secrecy is one of 2 or 3) to perform read " ++
            "actions on file (where secrecy is low) if archive.") := by
  obtain ⟨hs, -, hplaced⟩ := levelSelection_spec
  refine ⟨unambiguous_levels, hs, hplaced, _, Registry.compile_eq_document hs rfl, ?_, ?_⟩
  · exact eq_ok_of_toOption_eq_some (by decide +kernel)
  · exact eq_ok_of_toOption_eq_some (by decide +kernel)

end PolicyAuthoring
