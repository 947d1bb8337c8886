import PolicyAuthoring.Value.Reading

/-!
# Attributes

An attribute is something that a condition can be put on: a property of a subject, of a resource or
of an additional resource. Its definition comes from a catalog entry, of which hardly a field is
required. `Attribute.ofEntry` fills in what the entry leaves out, and `Attribute.define` is where
every definition is made: it refuses an attribute without an identifier or a name.
-/

namespace PolicyAuthoring

/-- Where an attribute may be used in a policy. -/
inductive Category where
  | subject | resource | additionalResource | environment
  deriving DecidableEq

namespace Category

/-- The name of a category. -/
def name : Category → String
  | .subject => "subject"
  | .resource => "resource"
  | .additionalResource => "additional-resource"
  | .environment => "environment"

/-- The category that a value names. -/
def ofValue (v : Value) : Except ShapeFault Category :=
  match v with
  | .text "subject" => .ok .subject
  | .text "resource" => .ok .resource
  | .text "additional-resource" => .ok .additionalResource
  | .text "environment" => .ok .environment
  | _ => .error (.notAWord v "AttributeCategory")

end Category

/-- The types that a value of an attribute can be declared to have. -/
inductive DataType where
  | string | number | boolean | date | array | object
  deriving DecidableEq

namespace DataType

/-- The name of a data type. -/
def name : DataType → String
  | .string => "string"
  | .number => "number"
  | .boolean => "boolean"
  | .date => "date"
  | .array => "array"
  | .object => "object"

/-- The data type that a value names. A catalog may declare a type that is none of these. -/
def ofValue? : Value → Option DataType
  | .text "string" => some .string
  | .text "number" => some .number
  | .text "boolean" => some .boolean
  | .text "date" => some .date
  | .text "array" => some .array
  | .text "object" => some .object
  | _ => none

end DataType

/-- What the catalog demands of the values of an attribute. A demand that is not made is null. -/
structure Constraints where
  /-- The values to choose from, if there are any. -/
  enumValues : List Value := []
  /-- The least number. -/
  minValue : Value := .null
  /-- The greatest number. -/
  maxValue : Value := .null
  /-- The pattern that a text has to match. -/
  pattern : Value := .null
  /-- The least length of a text. -/
  minLength : Value := .null
  /-- The greatest length of a text. -/
  maxLength : Value := .null

namespace Constraints

/-- Read constraints; what is missing makes no demand. -/
def ofValue (v : Value) : Except ShapeFault Constraints := do
  let data := v.orElse (.mapping [])
  return {
    enumValues := ← (← data.field "enumValues").itemsIfPresent
    minValue := ← data.field "minValue"
    maxValue := ← data.field "maxValue"
    pattern := ← data.field "pattern"
    minLength := ← data.field "minLength"
    maxLength := ← data.field "maxLength" }

/-- The entry of a demand that is made. -/
def demand (name : String) : Value → List (Value × Value)
  | .null => []
  | v => [(.text name, v)]

/-- Constraints as a mapping of the demands that are made. -/
def toValue (c : Constraints) : Value :=
  let choices := if c.enumValues.isEmpty then .null else .list c.enumValues
  .mapping (demand "enumValues" choices ++ demand "minValue" c.minValue ++
    demand "maxValue" c.maxValue ++ demand "pattern" c.pattern ++
    demand "minLength" c.minLength ++ demand "maxLength" c.maxLength)

end Constraints

/-- The definition of an attribute. -/
structure Attribute where
  /-- The identifier under which selections refer to the attribute. -/
  id : Value
  /-- The name under which conditions refer to the attribute. -/
  name : Value
  /-- The name that sentences use. -/
  displayName : Value
  /-- The declared data type, which need not be a known one. -/
  dataType : Value := .text "string"
  /-- The categories, each once. -/
  categories : List Value := []
  /-- Whether the attribute takes several values. -/
  isMultiValue : Value := .bool false
  /-- Whether a value is required. -/
  isRequired : Value := .bool false
  /-- What is demanded of values. -/
  constraints : Constraints := {}

namespace Attribute

/-- The values of a sequence, each once, as members of a set. -/
def distinct : List Value → Except ShapeFault (List Value)
  | [] => .ok []
  | v :: rest => do
    let member ← v.asKey
    return member :: (← distinct rest).filter fun w => !member.same w

/-- Make a definition from given fields. An attribute without a display name is displayed by its
name. -/
def define (fields : Attribute) : Except ShapeFault Attribute :=
  if !fields.id.truthy then .error .emptyId
  else if !fields.name.truthy then .error (.unnamed fields.id)
  else .ok { fields with displayName := fields.displayName.orElse fields.name }

/-- Make a definition from given fields and a value made of its categories. -/
def ofFields (fields : Attribute) (categories : Value) : Except ShapeFault Attribute := do
  return { ← define fields with categories := ← distinct (← categories.items) }

/-- The categories of a catalog entry: one text, the texts of a sequence or set, or what stands in
the older field for a single category. -/
def entryCategories (entry : Value) : Except ShapeFault (List Value) := do
  let categories ← entry.field "categories"
  match categories with
  | .text _ | .unpaired _ => return [categories]
  | .list items | .tuple items | .set items => return items.filter Value.isText
  | _ =>
    let single ← entry.field "category"
    return if single.truthy then [single] else []

/-- The texts that raise a flag. -/
def flagWords : List String := ["1", "true", "yes", "on"]

/-- Whether a flag is raised: by the truth value or by a text that says so. -/
def flag (v : Value) : Bool :=
  match v with
  | .bool b => b
  | .text s => flagWords.contains (Text.lower (Text.strip s))
  | _ => false

/-- The identifier of a catalog entry, which stands in one of two fields. -/
def entryId (entry : Value) : Except ShapeFault Value := do
  let id ← entry.field "id"
  if id.truthy then return id else entry.field "_id"

/-- Read the definition that a catalog entry gives. -/
def ofEntry (entry : Value) : Except ShapeFault Attribute := do
  let id ← entryId entry
  let name := (← entry.field "name").orElse id
  let displayName := (← entry.field "displayName").orElse (.text "")
  let dataType := (← entry.field "dataType").orElse (.text "string")
  let categories ← distinct (← entryCategories entry)
  let isMultiValue := flag (← entry.field "isMultiValue")
  let isRequired := flag (← entry.field "isRequired")
  let constraints ← Constraints.ofValue (← entry.field "constraints")
  define { id, name, displayName, dataType, categories, constraints
           isMultiValue := .bool isMultiValue, isRequired := .bool isRequired }

/-- Whether an attribute has a category, given by a value. -/
def hasCategory (a : Attribute) (category : Value) : Bool :=
  a.categories.any fun c => c.same category

/-- Whether an attribute has a category, given by a value that must be able to be a member. A set is
looked for as one that cannot change, which no category is. -/
def checkCategory (a : Attribute) (category : Value) : Except ShapeFault Bool :=
  match category with
  | .set _ => .ok false
  | _ => do return a.hasCategory (← category.asKey)

/-- The order of two categories: texts by code points, and numbers by size. -/
def categoryLt (v w : Value) : Except ShapeFault Bool :=
  match v, w with
  | .float x, .float y => .ok (x.lt y)
  | _, _ =>
    match v.codes?, w.codes? with
    | some a, some b => .ok (a < b)
    | _, _ =>
      match v.asInt?, w.asInt? with
      | some m, some n => .ok (m < n)
      | _, _ => .error (.unordered v.kind w.kind)

/-- Put a category into its place among sorted ones. -/
def insertCategory (v : Value) : List Value → Except ShapeFault (List Value)
  | [] => .ok [v]
  | w :: rest => do
    if ← categoryLt v w then return v :: w :: rest
    else return w :: (← insertCategory v rest)

/-- Categories in their order. -/
def sortedCategories (categories : List Value) : Except ShapeFault (List Value) :=
  categories.foldlM (fun sorted v => insertCategory v sorted) []

/-- A definition as a catalog entry. -/
def toValue (a : Attribute) : Except ShapeFault Value := do
  let categories ← sortedCategories a.categories
  return .mapping [
    (.text "id", a.id),
    (.text "name", a.name),
    (.text "displayName", a.displayName),
    (.text "categories", .list categories),
    (.text "dataType", a.dataType),
    (.text "isMultiValue", a.isMultiValue),
    (.text "isRequired", a.isRequired),
    (.text "constraints", a.constraints.toValue)]

end Attribute

end PolicyAuthoring
