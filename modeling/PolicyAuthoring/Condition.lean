import PolicyAuthoring.Value.Reading

/-!
# Conditions

A condition compares an attribute, given by its name, with a value. In a document it is a mapping
of name, operator and value, of which only the name is required.
-/

namespace PolicyAuthoring

/-- A comparison of an attribute with a value. -/
structure Condition where
  /-- The name of the attribute. -/
  name : Value
  /-- The word for the operator. -/
  operator : Value
  /-- The value to compare with. -/
  value : Value

namespace Condition

/-- Read a condition. -/
def ofValue (v : Value) : Except ShapeFault Condition := do
  return {
    name := ← v.requiredField "name"
    operator := (← v.field "operator").orElse (.text "")
    value := ← v.field "value" }

/-- The value of a condition as a document holds it: a tuple becomes a list. -/
def plainValue : Value → Value
  | .tuple items => .list items
  | v => v

/-- A condition as a mapping. -/
def toValue (c : Condition) : Value :=
  .mapping [
    (.text "name", c.name),
    (.text "operator", c.operator),
    (.text "value", plainValue c.value)]

/-- Read a list of conditions, which may be missing. -/
def listOfValue (v : Value) : Except ShapeFault (List Condition) := do
  (← v.itemsIfPresent).mapM ofValue

/-- A list of conditions as a value. -/
def listToValue (conditions : List Condition) : Value := .list (conditions.map toValue)

end Condition

end PolicyAuthoring
