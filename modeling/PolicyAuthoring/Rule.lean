import PolicyAuthoring.Condition

/-!
# Rules

A rule lets one subject perform one action on one object, under conditions on the subject and on
the object. A missing field of a rule is an empty text, and an action without a display name is
displayed by its name.
-/

namespace PolicyAuthoring

/-- A pairing of an action with an object for a subject. -/
structure Rule where
  /-- The identifier of the rule. -/
  id : Value
  /-- The subject. -/
  subject : Value
  /-- The action. -/
  action : Value
  /-- How sentences speak of the action. -/
  actionLabel : Value
  /-- The object of the action. -/
  object : Value
  /-- The conditions on the subject. -/
  subjectConditions : List Condition := []
  /-- The conditions on the object. -/
  objectConditions : List Condition := []
  /-- Further conditions, which are carried along as they are. -/
  conditions : List Value := []

namespace Rule

/-- Read a rule. -/
def ofValue (v : Value) : Except ShapeFault Rule := do
  let subject := (← v.field "subject").orElse (.mapping [])
  let action := (← v.field "action").orElse (.mapping [])
  let object := (← v.field "object").orElse (.mapping [])
  return {
    id := ← v.fieldD "id" (.text "")
    subject := ← subject.fieldD "type" (.text "")
    action := ← action.fieldD "name" (.text "")
    actionLabel := (← action.field "displayName").orElse (← action.fieldD "name" (.text ""))
    object := ← object.fieldD "type" (.text "")
    subjectConditions := ← Condition.listOfValue (← subject.field "attributes")
    objectConditions := ← Condition.listOfValue (← object.field "attributes")
    conditions := ← (← v.field "conditions").itemsIfPresent }

/-- A rule as a mapping. -/
def toValue (r : Rule) : Value :=
  .mapping [
    (.text "id", r.id),
    (.text "subject", .mapping [
      (.text "type", r.subject),
      (.text "attributes", Condition.listToValue r.subjectConditions)]),
    (.text "action", .mapping [
      (.text "name", r.action),
      (.text "displayName", r.actionLabel)]),
    (.text "object", .mapping [
      (.text "type", r.object),
      (.text "attributes", Condition.listToValue r.objectConditions)]),
    (.text "conditions", .list r.conditions)]

end Rule

end PolicyAuthoring
