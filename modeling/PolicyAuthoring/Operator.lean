import PolicyAuthoring.Attribute

/-!
# Operators

The comparisons that a condition can make, and which of them an attribute offers. The offer depends
on the declared data type and on whether the value to compare with is a sequence; its first entry
is the default. `Operator.resolve` keeps the author's choice if the offer has it and takes the
default otherwise, so that a resolved operator is always one of the offer.
-/

namespace PolicyAuthoring

/-- A comparison between the value at run time and the value of a condition. -/
inductive Operator where
  | equals | notEquals | contains | notContains | includes | notIncludes | isIn | notIn
  | greaterThan | lessThan | greaterThanOrEqual | lessThanOrEqual
  deriving DecidableEq

namespace Operator

/-- The word for an operator in a document. -/
def word : Operator → String
  | .equals => "equals"
  | .notEquals => "not_equals"
  | .contains => "contains"
  | .notContains => "not_contains"
  | .includes => "includes"
  | .notIncludes => "not_includes"
  | .isIn => "in"
  | .notIn => "not_in"
  | .greaterThan => "greater_than"
  | .lessThan => "less_than"
  | .greaterThanOrEqual => "greater_than_or_equal"
  | .lessThanOrEqual => "less_than_or_equal"

/-- The label of an operator in a menu. -/
def label : Operator → String
  | .equals => "Equals"
  | .notEquals => "Not Equals"
  | .contains => "Contains"
  | .notContains => "Not Contains"
  | .includes => "Includes"
  | .notIncludes => "Not Includes"
  | .isIn => "In"
  | .notIn => "Not In"
  | .greaterThan => "Greater Than"
  | .lessThan => "Less Than"
  | .greaterThanOrEqual => "Greater Than or Equals"
  | .lessThanOrEqual => "Less Than or Equals"

/-- The phrase for an operator in a sentence. -/
def phrase : Operator → String
  | .equals => "is"
  | .notEquals => "is not"
  | .contains => "contains"
  | .notContains => "does not contain"
  | .includes => "includes"
  | .notIncludes => "does not include"
  | .isIn => "is one of"
  | .notIn => "is not one of"
  | .greaterThan => "is greater than"
  | .lessThan => "is less than"
  | .greaterThanOrEqual => "is greater than or equal to"
  | .lessThanOrEqual => "is less than or equal to"

/-- Every operator. -/
def all : List Operator :=
  [.equals, .notEquals, .contains, .notContains, .includes, .notIncludes, .isIn, .notIn,
    .greaterThan, .lessThan, .greaterThanOrEqual, .lessThanOrEqual]

/-- The operator that a word stands for. -/
def ofWord? (s : String) : Option Operator := all.find? fun op => op.word = s

/-- The phrase for an operator as a document holds it; what is no operator reads as `is`. -/
def phraseOf (v : Value) : Except ShapeFault String := do
  match ← v.asKey with
  | .text s => return ((ofWord? s).map phrase).getD "is"
  | _ => return "is"

/-- The operators on offer when the data type is not a known one. -/
def unknownTypeOffer : List Operator := [.equals]

/-- The operators that a data type offers, the default first. -/
def offer : DataType → List Operator
  | .array => [.includes, .notIncludes]
  | .number =>
    [.equals, .notEquals, .greaterThan, .lessThan, .greaterThanOrEqual, .lessThanOrEqual]
  | .string => [.equals, .notEquals, .contains]
  | .boolean => [.isIn]
  | .date => [.isIn]
  | .object => [.isIn]

/-- The operators that can compare an attribute with a value. A sequence is compared by `in`,
unless the attribute is an array. -/
def domain (a : Attribute) (value : Value) : List Operator :=
  match DataType.ofValue? a.dataType with
  | some .array => offer .array
  | some type => if value.isSequence then [.isIn] else offer type
  | none => if value.isSequence then [.isIn] else unknownTypeOffer

/-- The operators among which an author chooses for an attribute, each as its word and its label. -/
def menu (a : Attribute) : List (String × String) :=
  (domain a .null).map fun op => (op.word, op.label)

/-- The default among the operators that can compare an attribute with a value. -/
def default (a : Attribute) (value : Value) : Operator := (domain a value).headD .equals

/-- The operator of a condition: the author's choice, if it can compare the attribute with the
value, and the default otherwise. -/
def resolve (a : Attribute) (value chosen : Value) : Operator :=
  if chosen.truthy then
    ((domain a value).find? fun op => (Value.text op.word).same chosen).getD (default a value)
  else default a value

theorem offer_ne_nil (type : DataType) : offer type ≠ [] := by
  cases type <;> simp [offer]

theorem domain_ne_nil (a : Attribute) (value : Value) : domain a value ≠ [] := by
  unfold domain
  split
  · exact offer_ne_nil _
  · split <;> simp [offer_ne_nil]
  · split <;> simp [unknownTypeOffer]

/-- The default is one of the operators that can compare the attribute with the value. -/
theorem default_mem_domain (a : Attribute) (value : Value) : default a value ∈ domain a value := by
  unfold default
  cases h : domain a value with
  | nil => exact absurd h (domain_ne_nil a value)
  | cons op ops => simp

/-- A resolved operator is one of those that can compare the attribute with the value. -/
theorem resolve_mem_domain (a : Attribute) (value chosen : Value) :
    resolve a value chosen ∈ domain a value := by
  unfold resolve
  split
  · cases h : (domain a value).find? fun op => (Value.text op.word).same chosen with
    | none => exact default_mem_domain a value
    | some op => exact List.mem_of_find?_eq_some h
  · exact default_mem_domain a value

end Operator

end PolicyAuthoring
