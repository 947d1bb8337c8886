import PolicyAuthoring.Document
import PolicyAuthoring.Registry

/-!
# Policies as sentences

Selections and documents in one English sentence. A selection is shown with the clauses its picks
make; a stored document is shown rule by rule, or by its flat lists when it has no rules. Sentences
are for readers only: nothing reads them back.
-/

namespace PolicyAuthoring

namespace Sentence

/-- Words as an English list: `A`, `A and B`, `A, B, and C`. -/
def joinList : List CodePoints → CodePoints
  | [] => []
  | [a] => a
  | [a, b] => a ++ " and " ++ b
  | words => Text.joinCodes ", " words.dropLast ++ ", and " ++ words.getLastD []

/-- The first item that is no text, with its index. -/
def firstNonText? (index : Nat) : List Value → Option (Nat × Value.Kind)
  | [] => none
  | v :: rest => if v.isText then firstNonText? (index + 1) rest else some (index, v.kind)

/-- Labels as an English list. A single label stands for itself, whatever it is; before the last of
three or more labels only texts can stand. -/
def joinLabels (labels : List Value) : Except ShapeFault Value :=
  match labels with
  | [v] => .ok v
  | _ =>
    match if 3 ≤ labels.length then firstNonText? 0 labels.dropLast else none with
    | some (index, kind) => .error (.itemNotText index kind)
    | none => .ok (.ofCodes (joinList (labels.map Value.display)))

mutual

/-- The text of a value in a sentence. The items of a sequence are alternatives. -/
def formatValue : Value → CodePoints
  | .list items => Text.joinCodes " or " (formatValues items)
  | .tuple items => Text.joinCodes " or " (formatValues items)
  | .bool b => if b then "true" else "false"
  | .float x =>
    match x.toInt? with
    | some n => decimalText n
    | none => x.text
  | v => v.display
termination_by structural v => v

/-- The texts of values in a sentence. -/
def formatValues : List Value → List CodePoints
  | [] => []
  | v :: rest => formatValue v :: formatValues rest
termination_by structural vs => vs

end

/-- A label with a remark in brackets after it, if there is a remark. -/
def withRemark (label : Value) (opening : String) (remark : CodePoints) :
    Except ShapeFault Value :=
  if remark = [] then .ok label
  else
    let tail : CodePoints := " (" ++ opening ++ remark ++ ")"
    match label with
    | .text _ | .unpaired _ => .ok (.ofCodes (label.display ++ tail))
    | .list items => .ok (.list (items ++ tail.map fun code => .ofCodes [code]))
    | v => .error (.notExtensible v.kind)

/-- A phrase about an attribute. -/
def conditionPhrase (label : CodePoints) (operator : String) (value : Value) : CodePoints :=
  label ++ " " ++ operator ++ " " ++ formatValue value

end Sentence

namespace Registry

open Sentence

/-- The phrase for a clause. -/
def clausePhrase (c : Clause) : Except ShapeFault CodePoints := do
  return conditionPhrase (← c.definition.displayName.lower) c.operator.phrase c.value

/-- The phrases for the clauses that picks make. -/
def pickPhrases (r : Registry) (picks : Picks) : Except ShapeFault (List CodePoints) :=
  (r.catalog.clauses picks).mapM clausePhrase

/-- The remark that lists phrases. -/
def phrasesRemark (opening : String) (phrases : List CodePoints) : CodePoints :=
  if phrases.isEmpty then [] else " (" ++ opening ++ joinList phrases ++ ")"

/-- The labels of identifiers as an English list. -/
def joinReferences (r : Registry) (kind : Reference.Kind) (ids : List Value) :
    Except ShapeFault Value := do
  joinLabels (← ids.mapM (r.directory.label kind))

/-- The labels of actions in lower case as an English list. -/
def joinActions (r : Registry) (ids : List Value) : Except ShapeFault CodePoints := do
  return joinList (← ids.mapM fun id => do (← r.directory.label .action id).lower)

/-- What a sentence says about the additional resources of a selection. -/
def additionalClause (r : Registry) (s : Selection) : Except ShapeFault CodePoints := do
  let ids := s.additionalResources.filter Value.isNonBlankText
  if ids.isEmpty then return []
  let names ← r.joinReferences .additionalResource ids
  if !names.isText then throw (.notText names.kind)
  return " if " ++ names.display ++ phrasesRemark "when " (← r.pickPhrases s.additionalPicks)

/-- The review sentence of a selection. -/
def sentence (r : Registry) (s : Selection) : Except ShapeFault CodePoints := do
  let subject ← r.directory.label .subject (s.subject.orElse (.text ""))
  let subjectPhrases ← r.pickPhrases s.subjectPicks
  let resourcePhrases ← r.pickPhrases s.resourcePicks
  let actions ← r.joinActions s.actions
  let resources ← r.joinReferences .resource s.resources
  let additional ← r.additionalClause s
  return "This policy " ++ s.effect.verb ++ " " ++ subject.display ++
    phrasesRemark "when " subjectPhrases ++ " to perform " ++ actions ++ " actions on " ++
    resources.display ++ phrasesRemark "where " resourcePhrases ++ additional ++ "."

/-- The phrase for a stored condition. A condition whose attribute is not in the catalog is spoken
of by its name. -/
def storedPhrase (r : Registry) (c : Condition) : Except ShapeFault CodePoints := do
  let label := ((r.catalog.find? c.name).map Attribute.displayName).getD c.name
  return conditionPhrase (← label.lower) (← Operator.phraseOf c.operator) c.value

/-- The phrases for stored conditions as an English list, conditions with an empty value left
out. -/
def storedPhrases (r : Registry) (conditions : List Condition) : Except ShapeFault CodePoints := do
  return joinList (← (conditions.filter fun c => !c.value.isEmpty).mapM r.storedPhrase)

/-- The phrase for a rule. -/
def rulePhrase (r : Registry) (rule : Rule) : Except ShapeFault CodePoints := do
  let subject ← r.directory.label .subject rule.subject
  let subject ← withRemark subject "when " (← r.storedPhrases rule.subjectConditions)
  let action ← (rule.actionLabel.orElse rule.action).lower
  let object ← r.directory.label .resource rule.object
  let object ← withRemark object "where " (← r.storedPhrases rule.objectConditions)
  return subject.display ++ " to perform " ++ action ++ " actions on " ++ object.display

/-- The phrase for an attachment. -/
def attachmentPhrase (r : Registry) (a : Attachment) : Except ShapeFault Value := do
  let label ← r.directory.label .additionalResource a.id
  withRemark label "" (← r.storedPhrases a.conditions)

/-- The phrases for attachments as an English list. -/
def attachmentPhrases (r : Registry) (attachments : List Attachment) :
    Except ShapeFault CodePoints := do
  return (← joinLabels (← attachments.mapM r.attachmentPhrase)).display

/-- What a summary says after `opening` about the attachments of a document. -/
def attachmentClause (r : Registry) (opening : String) (attachments : List Attachment) :
    Except ShapeFault CodePoints := do
  if attachments.isEmpty then return []
  return opening ++ (← r.attachmentPhrases attachments)

/-- The summary of a document that has rules. -/
def summaryOfRules (r : Registry) (d : Document) : Except ShapeFault CodePoints := do
  let phrases ← d.rules.mapM r.rulePhrase
  return "This policy " ++ d.effect.verb ++ " " ++ Text.joinCodes "; " phrases ++
    (← r.attachmentClause " if " d.additionalResources) ++ "."

/-- The summary of a document by its flat lists. -/
def summaryOfLists (r : Registry) (d : Document) : Except ShapeFault CodePoints := do
  let subjects := (← r.joinReferences .subject d.subjects).orElse (.text "All users")
  let actions := (Value.ofCodes (← r.joinActions d.actions)).orElse (.text "any action")
  let resources := (← r.joinReferences .resource d.resources).orElse (.text "any resource")
  return "This policy " ++ d.effect.verb ++ " " ++ subjects.display ++ " to perform " ++
    actions.display ++ " actions on " ++ resources.display ++
    (← r.attachmentClause " and on additional resources " d.additionalResources) ++ "."

/-- The summary of a document. -/
def summary (r : Registry) (d : Document) : Except ShapeFault CodePoints :=
  if d.rules.isEmpty then r.summaryOfLists d else r.summaryOfRules d

/-- The dots that end a text that was cut. -/
def ellipsis : String := "..."

/-- A text cut to a length, ending in dots if it was cut. -/
def cutTo (maxLength : Int) (text : CodePoints) : CodePoints :=
  if (text.length : Int) ≤ maxLength then text
  else text.take (maxLength - ellipsis.length).toNat ++ ellipsis

/-- The summary of a document cut to a length. -/
def shortSummary (r : Registry) (maxLength : Int) (d : Document) :
    Except ShapeFault CodePoints := do
  return cutTo maxLength (← r.summary d)

end Registry

end PolicyAuthoring
