import PolicyAuthoring.Effect

/-!
# Selections

What an author has picked for a policy: a subject, actions and resources, values for attributes on
three sides, and the operators chosen for them. Values and operators are kept in tables by
attribute. A selection without subject, actions or resources is incomplete.
-/

namespace PolicyAuthoring

/-- The values and operators that an author has picked for the attributes of one side. -/
structure Picks where
  /-- The values by attribute. -/
  values : Table Value := []
  /-- The chosen operators by attribute. -/
  operators : Table Value := []

/-- What an author has picked. -/
structure Selection where
  /-- The name of the policy. -/
  name : Value := .text ""
  /-- What the policy is for. -/
  description : Value := .text ""
  /-- What the policy does. -/
  effect : Effect := .allow
  /-- Where the policy stands in its life. -/
  status : Status := .draft
  /-- The subject. -/
  subject : Value := .null
  /-- The actions. -/
  actions : List Value := []
  /-- The resources. -/
  resources : List Value := []
  /-- The picks for the subject. -/
  subjectPicks : Picks := {}
  /-- The picks for the resources. -/
  resourcePicks : Picks := {}
  /-- The additional resources. -/
  additionalResources : List Value := []
  /-- The picks for the additional resources. -/
  additionalPicks : Picks := {}

namespace Picks

/-- Read picks from the fields of a selection that hold the values and the operators. -/
def ofFields (v : Value) (values operators : String) : Except ShapeFault Picks := do
  return {
    values := ← (← v.field values).entriesIfPresent
    operators := ← (← v.field operators).entriesIfPresent }

/-- Whether two sides have equal picks. -/
def same (p q : Picks) : Bool :=
  (Value.mapping p.values).same (.mapping q.values) &&
    (Value.mapping p.operators).same (.mapping q.operators)

end Picks

namespace Selection

/-- The parts that a selection still lacks. -/
def missingParts (s : Selection) : List Part :=
  (if s.subject.truthy then [] else [.subject]) ++
    (if s.actions.isEmpty then [.actions] else []) ++
    (if s.resources.isEmpty then [.resources] else [])

/-- Whether a selection lacks nothing. -/
def isComplete (s : Selection) : Bool := s.missingParts.isEmpty

/-- Read a selection. -/
def ofValue (v : Value) : Except ShapeFault Selection := do
  return {
    name := (← v.field "name").orElse (.text "")
    description := (← v.field "description").orElse (.text "")
    effect := ← Effect.ofValue (← v.fieldD "effect" (.text Effect.allow.word))
    status := ← Status.ofValue (← v.fieldD "status" (.text Status.draft.word))
    subject := ← v.field "subject"
    actions := ← (← v.field "actions").itemsIfPresent
    resources := ← (← v.field "resources").itemsIfPresent
    subjectPicks := ← Picks.ofFields v "subjectAttributes" "subjectOperators"
    resourcePicks := ← Picks.ofFields v "resourceAttributes" "resourceOperators"
    additionalResources := ← (← v.field "additionalResources").itemsIfPresent
    additionalPicks :=
      ← Picks.ofFields v "additionalResourceAttributes" "additionalResourceOperators" }

/-- The entries under which a selection is stored. -/
def entries (s : Selection) : List (Value × Value) :=
  [(.text "name", s.name),
    (.text "description", s.description),
    (.text "effect", .text s.effect.word),
    (.text "status", .text s.status.word),
    (.text "subject", s.subject),
    (.text "actions", .list s.actions),
    (.text "resources", .list s.resources),
    (.text "subjectAttributes", .mapping s.subjectPicks.values),
    (.text "subjectOperators", .mapping s.subjectPicks.operators),
    (.text "resourceAttributes", .mapping s.resourcePicks.values),
    (.text "resourceOperators", .mapping s.resourcePicks.operators),
    (.text "additionalResources", .list s.additionalResources),
    (.text "additionalResourceAttributes", .mapping s.additionalPicks.values),
    (.text "additionalResourceOperators", .mapping s.additionalPicks.operators)]

/-- A selection as a mapping. -/
def toValue (s : Selection) : Value := .mapping s.entries

/-- Whether two selections are equal. -/
def same (s t : Selection) : Bool :=
  s.name.same t.name && s.description.same t.description && s.effect = t.effect &&
    s.status = t.status && s.subject.same t.subject && Value.sameItems s.actions t.actions &&
    Value.sameItems s.resources t.resources && s.subjectPicks.same t.subjectPicks &&
    s.resourcePicks.same t.resourcePicks &&
    Value.sameItems s.additionalResources t.additionalResources &&
    s.additionalPicks.same t.additionalPicks

/-- The missing parts come in the order subject, actions, resources. -/
theorem missingParts_eq (s : Selection) :
    s.missingParts = [Part.subject, .actions, .resources].filter fun part =>
      match part with
      | .subject => !s.subject.truthy
      | .actions => s.actions.isEmpty
      | .resources => s.resources.isEmpty := by
  unfold missingParts
  cases s.subject.truthy <;> cases s.actions.isEmpty <;> cases s.resources.isEmpty <;> rfl

/-- A selection is complete when it has a subject, an action and a resource. -/
theorem isComplete_iff (s : Selection) :
    s.isComplete = true ↔
      s.subject.truthy = true ∧ s.actions.isEmpty = false ∧ s.resources.isEmpty = false := by
  unfold isComplete missingParts
  cases s.subject.truthy <;> cases s.actions.isEmpty <;> cases s.resources.isEmpty <;> simp

end Selection

end PolicyAuthoring
