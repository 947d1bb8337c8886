import PolicyAuthoring.Catalog
import PolicyAuthoring.Condition
import PolicyAuthoring.Reference
import PolicyAuthoring.Selection

/-!
# Registries

What a catalog file offers to the author of a policy: attribute definitions and references. Against
a registry, the picks of one side of a selection become conditions. A pick with an empty value
makes no condition, and neither does a pick for an attribute that the catalog does not define.
-/

namespace PolicyAuthoring

/-- The attribute definitions and references of a catalog file. -/
structure Registry where
  /-- The attribute definitions. -/
  catalog : Catalog := {}
  /-- The references. -/
  directory : Directory := {}

namespace Registry

/-- Read a registry from a catalog mapping. -/
def ofValue (v : Value) : Except Fault Registry := do
  return { catalog := ← Catalog.ofValue v, directory := ← Directory.ofValue v }

end Registry

/-- A pick that makes a condition. -/
structure Clause where
  /-- The definition of the attribute. -/
  definition : Attribute
  /-- The operator that the condition gets. -/
  operator : Operator
  /-- The value to compare with. -/
  value : Value

namespace Clause

/-- The condition that a clause makes. -/
def condition (c : Clause) : Condition :=
  { name := c.definition.name, operator := .text c.operator.word, value := c.value }

end Clause

namespace Catalog

/-- The clause that an entry of a table of values makes, if it makes one. -/
def clause? (c : Catalog) (operators : Table Value) (entry : Value × Value) : Option Clause :=
  if entry.2.isEmpty then none
  else (c.get? entry.1).map fun definition =>
    { definition
      operator := Operator.resolve definition entry.2 ((operators.lookup entry.1).getD .null)
      value := entry.2 }

/-- The clauses that picks make, in the order of the values. -/
def clauses (c : Catalog) (picks : Picks) : List Clause :=
  picks.values.filterMap (c.clause? picks.operators)

/-- The conditions that picks make, in the order of the values. -/
def conditions (c : Catalog) (picks : Picks) : List Condition :=
  (c.clauses picks).map Clause.condition

end Catalog

end PolicyAuthoring
