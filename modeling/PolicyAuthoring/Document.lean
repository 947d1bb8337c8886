import PolicyAuthoring.Effect
import PolicyAuthoring.Rule
import PolicyAuthoring.Json.Writer

/-!
# Policy documents

The form in which a policy is stored and exchanged: flat lists of what it is about, one rule for
each pairing of an action with a resource, and the additional resources that it attaches. Documents
written by others are read with every field optional.
-/

namespace PolicyAuthoring

/-- An additional resource that becomes available when the policy matches. -/
structure Attachment where
  /-- The identifier of the resource. -/
  id : Value
  /-- The conditions on the resource. -/
  conditions : List Condition := []

namespace Attachment

/-- Read an attachment, which may be written as its identifier alone. -/
def ofValue (v : Value) : Except ShapeFault Attachment := do
  if v.isText then return { id := v }
  else return {
    id := ← v.fieldD "id" (.text "")
    conditions := ← Condition.listOfValue (← v.field "attributes") }

/-- An attachment as a mapping. -/
def toValue (a : Attachment) : Value :=
  .mapping [(.text "id", a.id), (.text "attributes", Condition.listToValue a.conditions)]

end Attachment

/-- A policy as it is stored. -/
structure Document where
  /-- The name of the policy. -/
  name : Value
  /-- What the policy is for. -/
  description : Value := .text ""
  /-- What the policy does. -/
  effect : Effect := .allow
  /-- Where the policy stands in its life. -/
  status : Status := .draft
  /-- The subjects. -/
  subjects : List Value := []
  /-- The resources. -/
  resources : List Value := []
  /-- The actions. -/
  actions : List Value := []
  /-- The rules. -/
  rules : List Rule := []
  /-- The additional resources. -/
  additionalResources : List Attachment := []
  /-- Further conditions, which are carried along as they are. -/
  conditions : List Value := []

namespace Document

/-- Read a document. -/
def ofValue (v : Value) : Except ShapeFault Document := do
  return {
    name := ← v.fieldD "name" (.text "")
    description := (← v.field "description").orElse (.text "")
    effect := ← Effect.ofValue (← v.fieldD "effect" (.text Effect.allow.word))
    status := ← Status.ofValue (← v.fieldD "status" (.text Status.draft.word))
    subjects := ← (← v.field "subjects").itemsIfPresent
    resources := ← (← v.field "resources").itemsIfPresent
    actions := ← (← v.field "actions").itemsIfPresent
    rules := ← (← (← v.field "rules").itemsIfPresent).mapM Rule.ofValue
    additionalResources :=
      ← (← (← v.field "additionalResources").itemsIfPresent).mapM Attachment.ofValue
    conditions := ← (← v.field "conditions").itemsIfPresent }

/-- A document as a mapping. -/
def toValue (d : Document) : Value :=
  .mapping [
    (.text "name", d.name),
    (.text "description", d.description),
    (.text "effect", .text d.effect.word),
    (.text "status", .text d.status.word),
    (.text "subjects", .list d.subjects),
    (.text "resources", .list d.resources),
    (.text "actions", .list d.actions),
    (.text "rules", .list (d.rules.map Rule.toValue)),
    (.text "additionalResources", .list (d.additionalResources.map Attachment.toValue)),
    (.text "conditions", .list d.conditions)]

/-- The JSON text of a document. -/
def toJson (d : Document) : Except ShapeFault String := Json.write d.toValue

end Document

end PolicyAuthoring
