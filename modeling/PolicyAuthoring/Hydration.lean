import PolicyAuthoring.Document
import PolicyAuthoring.Registry

/-!
# Reopening documents

A stored document becomes a selection again, so that its author can change it. All rules carry the
same conditions, so the first rule and the first attachment stand for the others. A condition is
filed under the attribute that its name finds, first among the attributes of the side it belongs
to and then among all; a condition that finds none is filed under its own name.
-/

namespace PolicyAuthoring

namespace Catalog

/-- The attribute that the name of a condition finds. -/
def resolve? (c : Catalog) (category : Category) (name : Value) : Option Attribute :=
  ((c.forCategory (.text category.name)).find? name).or (c.find? name)

/-- The key under which a condition is filed. -/
def filingKey (c : Catalog) (category : Category) (name : Value) : Value :=
  ((c.resolve? category name).map Attribute.id).getD name

/-- File a condition among the picks of a side. -/
def file (c : Catalog) (category : Category) (picks : Picks) (condition : Condition) :
    Except ShapeFault Picks := do
  let key ← (c.filingKey category condition.name).asKey
  return {
    values := picks.values.put key condition.value
    operators :=
      if condition.operator.truthy then picks.operators.put key condition.operator
      else picks.operators }

/-- File conditions one after the other. -/
def picksOf (c : Catalog) (category : Category) (conditions : List Condition) :
    Except ShapeFault Picks :=
  conditions.foldlM (c.file category) {}

/-- The selection from which a document may have been compiled. -/
def hydrate (c : Catalog) (d : Document) : Except ShapeFault Selection := do
  let bare : Selection := {
    name := d.name
    description := d.description
    effect := d.effect
    status := d.status
    actions := d.actions
    resources := d.resources }
  let base ← match d.rules with
    | rule :: _ => do
      pure { bare with
        subject := rule.subject
        subjectPicks := ← c.picksOf .subject rule.subjectConditions
        resourcePicks := ← c.picksOf .resource rule.objectConditions }
    | [] => pure { bare with subject := d.subjects.headD .null }
  match d.additionalResources with
  | first :: _ => do
    return { base with
      additionalResources := d.additionalResources.map Attachment.id
      additionalPicks := ← c.picksOf .additionalResource first.conditions }
  | [] => return base

end Catalog

end PolicyAuthoring
