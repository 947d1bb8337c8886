import PolicyAuthoring.Sentence

/-!
# Explaining rules

One rule of a document line by line: what it allows or denies, and under which conditions. The rule
is the first one with the given identifier.
-/

namespace PolicyAuthoring

namespace Document

/-- The first rule with an identifier. -/
def rule? (d : Document) (id : Value) : Option Rule := d.rules.find? fun rule => rule.id.equals id

/-- The line about a condition. -/
def conditionLine (c : Condition) : CodePoints :=
  "  - " ++ c.name.display ++ " " ++ c.operator.display ++ " " ++ Sentence.formatValue c.value

/-- The lines about a list of conditions; there are none about the empty list. -/
def conditionLines (heading : String) (conditions : List Condition) : List CodePoints :=
  if conditions.isEmpty then [] else [] :: heading :: conditions.map conditionLine

/-- The lines about a rule. -/
def ruleLines (d : Document) (rule : Rule) : List CodePoints :=
  ["Rule: " ++ rule.id.display,
    "Effect: " ++ d.effect.word,
    "Subject: " ++ rule.subject.display,
    "Action: " ++ rule.actionLabel.display ++ " (" ++ rule.action.display ++ ")",
    "Object: " ++ rule.object.display] ++
    conditionLines "Subject conditions:" rule.subjectConditions ++
    conditionLines "Object conditions:" rule.objectConditions

/-- The explanation of the rule with an identifier, if the document has it. -/
def explain (d : Document) (id : Value) : Option CodePoints :=
  (d.rule? id).map fun rule => Text.joinCodes "\n" (d.ruleLines rule)

end Document

end PolicyAuthoring
