import PolicyAuthoring.Document
import PolicyAuthoring.Registry

/-!
# Compiling selections

A complete selection becomes a document with one rule for every pairing of an action with a
resource. Rule `i * m + j` of a selection with `m` resources pairs action `i` with resource `j`.
All rules carry the same conditions, and so do all attachments. The identifiers of the rules of one
compile have a common stem, which comes from the clock or from a token that is never used twice.
-/

namespace PolicyAuthoring

/-- The reading of a clock in seconds. -/
inductive Clock where
  /-- A whole number of seconds. -/
  | whole (seconds : Int)
  /-- A number of seconds in floating point. -/
  | float (seconds : Binary64)

namespace Clock

/-- The reading in milliseconds, without a fraction. A reading in floating point is rounded to a
float before the fraction is dropped. -/
def milliseconds : Clock → Except ShapeFault Int
  | .whole seconds => .ok (seconds * 1000)
  | .float seconds =>
    match seconds.scale? 1000 with
    | some product =>
      match product.truncate? with
      | some n => .ok n
      | none => .error .infiniteClock
    | none => .error (if seconds = .nan then .undefinedClock else .infiniteClock)

end Clock

/-- Where the stem of the rule identifiers of one compile comes from. -/
inductive Stem where
  /-- The time of the compile. -/
  | timestamp (clock : Clock)
  /-- A token that no other compile uses. -/
  | unique (token : Nat)

namespace Stem

/-- The text of a stem. -/
def text : Stem → Except ShapeFault String
  | .timestamp clock => do return "rule-" ++ decimalText (← clock.milliseconds)
  | .unique token => .ok ("rule-" ++ String.ofList (Text.hexDigits 32 token))

end Stem

namespace Registry

/-- An action with the label under which sentences speak of it. -/
abbrev LabelledAction := Value × Value

/-- The actions of a selection with their labels. -/
def labelledActions (r : Registry) (s : Selection) : Except ShapeFault (List LabelledAction) :=
  s.actions.mapM fun action => do return (action, ← r.directory.label .action action)

/-- The rules that pair the labelled actions with the resources of a selection. -/
def pairRules (r : Registry) (stem : String) (s : Selection) (actions : List LabelledAction) :
    List Rule :=
  let pairs := actions.flatMap fun action => s.resources.map fun resource => (action, resource)
  let subjectConditions := r.catalog.conditions s.subjectPicks
  let objectConditions := r.catalog.conditions s.resourcePicks
  pairs.zipIdx.map fun ((action, resource), k) => {
    id := .text (stem ++ "-" ++ decimalText k)
    subject := s.subject.orElse (.text "")
    action := action.1
    actionLabel := action.2
    object := resource
    subjectConditions, objectConditions }

/-- The rules of a selection, one for each pairing of an action with a resource. -/
def rules (r : Registry) (stem : Stem) (s : Selection) : Except ShapeFault (List Rule) := do
  if s.actions.isEmpty || s.resources.isEmpty then return []
  let stem ← stem.text
  return r.pairRules stem s (← r.labelledActions s)

/-- The additional resources of a selection. What is no text or blank is passed over. -/
def attachments (r : Registry) (s : Selection) : List Attachment :=
  let conditions := r.catalog.conditions s.additionalPicks
  (s.additionalResources.filter Value.isNonBlankText).map fun id => { id, conditions }

/-- The document of a selection with given rules and attachments. -/
def assemble (s : Selection) (rules : List Rule) (additionalResources : List Attachment) :
    Except ShapeFault Document := do
  return {
    name := ← (s.name.orElse (.text "")).strip
    description := ← (s.description.orElse (.text "")).strip
    effect := s.effect
    status := s.status
    subjects := if s.subject.truthy then [s.subject] else []
    resources := s.resources
    actions := s.actions
    rules, additionalResources }

/-- Compile a selection. A selection that lacks a part is refused, and so is a document without
rules. -/
def compile (r : Registry) (stem : Stem) (s : Selection) : Except Fault Document := do
  let missing := s.missingParts
  if missing ≠ [] then throw (.incomplete missing)
  let rules ← r.rules stem s
  if rules.isEmpty then throw (.incomplete [.actions, .resources])
  assemble s rules (r.attachments s)

end Registry

end PolicyAuthoring
