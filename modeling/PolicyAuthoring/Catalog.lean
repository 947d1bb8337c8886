import PolicyAuthoring.Operator

/-!
# Catalogs

A catalog lists attribute definitions in the order in which they were entered. Compiling a policy
looks an attribute up by its identifier, through an index in which the first definition of an
identifier wins. Reopening a policy looks for the first definition whose name or identifier is a
given one.
-/

namespace PolicyAuthoring

/-- The index of a list of definitions: each identifier leads to its first definition. -/
def Catalog.index (attributes : List Attribute) : Table Attribute :=
  attributes.foldl (fun table a => table.putNew a.id a) []

/-- A list of attribute definitions with an index by identifier. -/
structure Catalog where
  /-- The definitions in order. -/
  attributes : List Attribute := []
  /-- The definitions by identifier. -/
  byId : Table Attribute := Catalog.index attributes
  /-- The index is that of the definitions. -/
  indexed : byId = Catalog.index attributes := by rfl

namespace Catalog

/-- The catalog of a list of definitions. -/
def ofList (attributes : List Attribute) : Catalog := { attributes }

/-- The catalog of a list of definitions whose identifiers can be keys of the index. -/
def ofAttributes (attributes : List Attribute) : Except ShapeFault Catalog := do
  attributes.forM fun a => do let _ ← a.id.asKey
  return ofList attributes

/-- The number of definitions. -/
def size (c : Catalog) : Nat := c.attributes.length

/-- The definition of an identifier. -/
def get? (c : Catalog) (id : Value) : Option Attribute := c.byId.lookup id

/-- The definition of an identifier, which must be able to be a key of the index. -/
def lookup (c : Catalog) (id : Value) : Except ShapeFault (Option Attribute) := do
  return c.get? (← id.asKey)

/-- Whether an identifier is defined. -/
def contains (c : Catalog) (id : Value) : Bool := c.byId.contains id

/-- The first definition whose name or identifier equals a key. -/
def find? (c : Catalog) (key : Value) : Option Attribute :=
  c.attributes.find? fun a => a.name.equals key || a.id.equals key

/-- The definitions that have a category. -/
def forCategory (c : Catalog) (category : Value) : Catalog :=
  ofList (c.attributes.filter fun a => a.hasCategory category)

/-- The definitions that have a category, given by a value that must be able to be a member. -/
def checkedForCategory (c : Catalog) (category : Value) : Except ShapeFault Catalog := do
  return ofList (← c.attributes.filterM fun a => a.checkCategory category)

/-- Whether a catalog entry defines an attribute: it has to be a mapping with an identifier. -/
def isDefinition (entry : Value) : Bool := entry.hasPresent "id" || entry.hasPresent "_id"

/-- Read catalog entries, counting from `index`. Entries that define nothing are passed over. -/
def attributesOfEntries (index : Nat) : List Value → Except Fault (List Attribute)
  | [] => .ok []
  | entry :: rest =>
    if isDefinition entry then
      match Attribute.ofEntry entry with
      | .ok a => do return a :: (← attributesOfEntries (index + 1) rest)
      | .error cause =>
        .error (if cause.isContentFault then .load (.entry index cause) else .shape cause)
    else attributesOfEntries (index + 1) rest

/-- Read a catalog from its mapping. -/
def ofValue (v : Value) : Except Fault Catalog := do
  let entries ← (← v.field "attributes").itemsIfPresent
  ofAttributes (← attributesOfEntries 0 entries)

end Catalog

end PolicyAuthoring
