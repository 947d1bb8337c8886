import PolicyAuthoring.Value.Reading

/-!
# Effect and status of a policy

What a policy does when its conditions match, and where it stands in its life. Both are written as
one word, and no other value is read as one of them.
-/

namespace PolicyAuthoring

/-- What a policy does when its conditions match. -/
inductive Effect where
  | allow | deny
  deriving DecidableEq

namespace Effect

/-- The word for an effect. -/
def word : Effect → String
  | .allow => "Allow"
  | .deny => "Deny"

/-- The effect that a value names. -/
def ofValue (v : Value) : Except ShapeFault Effect :=
  match v with
  | .text "Allow" => .ok .allow
  | .text "Deny" => .ok .deny
  | _ => .error (.notAWord v "PolicyEffect")

/-- The verb that a sentence uses for an effect. -/
def verb : Effect → String
  | .allow => "ALLOWS"
  | .deny => "DENIES"

/-- Writing an effect and reading it back gives the effect. -/
@[simp] theorem ofValue_word (effect : Effect) : ofValue (.text effect.word) = .ok effect := by
  cases effect <;> rfl

end Effect

/-- Where a policy stands in its life. -/
inductive Status where
  | active | inactive | draft
  deriving DecidableEq

namespace Status

/-- The word for a status. -/
def word : Status → String
  | .active => "Active"
  | .inactive => "Inactive"
  | .draft => "Draft"

/-- The status that a value names. -/
def ofValue (v : Value) : Except ShapeFault Status :=
  match v with
  | .text "Active" => .ok .active
  | .text "Inactive" => .ok .inactive
  | .text "Draft" => .ok .draft
  | _ => .error (.notAWord v "PolicyStatus")

/-- Writing a status and reading it back gives the status. -/
@[simp] theorem ofValue_word (status : Status) : ofValue (.text status.word) = .ok status := by
  cases status <;> rfl

end Status

end PolicyAuthoring
