import PolicyAuthoring.Proofs.Compilation
import PolicyAuthoring.Proofs.Catalog
import PolicyAuthoring.Proofs.Operator

/-!
# The conditions of a document

Every rule of a compiled document carries the conditions that the picks for the subject and for the
resources make, and every attachment carries those that the picks for the additional resources make.
This file says which conditions these are, whatever the catalog is: identifiers may recur, and data
types may be unknown.

- `Condition.IsFor` says of one condition that it compares an attribute with a value, by the
  operator that the author chose or by the default.
- `Catalog.Expresses` says of a list of conditions that it has one for each entry of a table of
  picked values that says something about an attribute, in the order of the entries.

`compile_conditions` says that the conditions of compiled documents express the picks of their
sides.
-/

namespace PolicyAuthoring

/-! ## Empty values -/

namespace Value

/-- The values that say nothing. -/
def emptyValues : List Value := [.null, .text "", .list [], .tuple []]

/-- A value counts as empty exactly if it is one of those that say nothing. -/
theorem isEmpty_iff {v : Value} : v.isEmpty = true ↔ v ∈ emptyValues := by
  cases v <;> simp [isEmpty, emptyValues]

end Value

/-! ## What conditions express -/

/-- A condition is for an attribute, a value to compare it with and an author's choice of the
operator. -/
structure Condition.IsFor (x : Condition) (a : Attribute) (value choice : Value) : Prop where
  /-- The condition names the attribute. -/
  name_eq : x.name = a.name
  /-- The condition compares with the value as it was picked. -/
  value_eq : x.value = value
  /-- The operator is one that the attribute offers for the value. -/
  offered : Operator.Offered a value x.operator
  /-- The operator is the author's choice exactly if the attribute offers that for the value. -/
  choice_iff : x.operator = choice ↔ Operator.Offered a value choice
  /-- Any other choice gives way to the first operator on offer. -/
  default_of_not_offered : ¬ Operator.Offered a value choice →
    ((Operator.domain a value).head?.map fun op => Value.text op.word) = some x.operator
  /-- If the value is no sequence, then what is on offer is what the menu of the attribute shows. -/
  menu : value.isSequence = false →
    ((Operator.domain a value).map fun op => (op.word, op.label)) = Operator.menu a
  /-- A sequence is compared by `in`, unless the attribute is an array. -/
  sequence : value.isSequence = true → a.dataType ≠ .text DataType.array.name →
    x.operator = .text Operator.isIn.word

/-- Conditions express the entries of a table of picked values. -/
inductive Catalog.Expresses (c : Catalog) (operators : Table Value) :
    Table Value → List Condition → Prop
  /-- Where nothing is picked there is no condition. -/
  | nil : Expresses c operators [] []
  /-- A value that says nothing makes no condition. -/
  | empty {key value : Value} {values : Table Value} {conditions : List Condition}
      (hvalue : value ∈ Value.emptyValues) (hrest : Expresses c operators values conditions) :
      Expresses c operators ((key, value) :: values) conditions
  /-- A key that identifies no attribute makes no condition. -/
  | unknown {key value : Value} {values : Table Value} {conditions : List Condition}
      (hkey : ∀ a ∈ c.attributes, a.id ≠ key) (hrest : Expresses c operators values conditions) :
      Expresses c operators ((key, value) :: values) conditions
  /-- Every other entry makes one condition, for the first attribute that the key identifies. -/
  | condition {key value : Value} {a : Attribute} {x : Condition} {values : Table Value}
      {conditions : List Condition} (hvalue : value ∉ Value.emptyValues) (hkey : c.IsFirst key a)
      (hx : x.IsFor a value ((operators.lookup key).getD .null))
      (hrest : Expresses c operators values conditions) :
      Expresses c operators ((key, value) :: values) (x :: conditions)

/-! ## The conditions that picks make -/

variable {r : Registry} {c : Catalog} {s : Selection} {stem : Stem} {start : String}

/-- The condition of a resolved operator is for the attribute, the value and the choice. -/
theorem Condition.isFor_resolve (a : Attribute) (value choice : Value) :
    IsFor { name := a.name, operator := .text (Operator.resolve a value choice).word, value }
      a value choice where
  name_eq := rfl
  value_eq := rfl
  offered := Operator.offered_resolve a value choice
  choice_iff := Operator.word_resolve_eq_iff
  default_of_not_offered := by
    intro h
    rw [Operator.head?_domain, Operator.resolve_of_not_offered h]
    rfl
  menu := fun h => Operator.map_domain_eq_menu a h
  sequence := by
    intro hvalue harray
    rw [Operator.resolve_of_isSequence hvalue harray]

/-- The conditions that picks make express the picked values. -/
theorem Catalog.expresses_conditions (c : Catalog) (operators : Table Value) {values : Table Value}
    (hkeys : ∀ entry ∈ values, entry.1.isText = true) :
    c.Expresses operators values (c.conditions { values, operators }) := by
  -- Each entry makes a condition of its own or none, so the cases follow what `clause?` asks of it.
  induction values with
  | nil => exact .nil
  | cons entry values ih =>
    obtain ⟨key, value⟩ := entry
    rw [List.forall_mem_cons] at hkeys
    have hkey : key.isText = true := hkeys.1
    have ih := ih hkeys.2
    rw [conditions, clauses] at ih ⊢
    by_cases hvalue : value.isEmpty = true
    · -- The value says nothing, whatever the key is.
      have hnone : c.clause? operators (key, value) = none := if_pos hvalue
      rw [List.filterMap_cons_none hnone]
      exact .empty (Value.isEmpty_iff.mp hvalue) ih
    · cases hget : c.get? key with
      | none =>
        have hnone : c.clause? operators (key, value) = none := by
          simp [clause?, hvalue, hget]
        rw [List.filterMap_cons_none hnone]
        exact .unknown ((get?_eq_none_iff hkey).mp hget) ih
      | some a =>
        -- The index keeps the first of the attributes that share an identifier.
        have hsome : c.clause? operators (key, value) = some {
            definition := a
            operator := Operator.resolve a value ((operators.lookup key).getD .null)
            value } := by
          simp [clause?, hvalue, hget]
        rw [List.filterMap_cons_some hsome, List.map_cons]
        have hfirst : c.IsFirst key a := (get?_eq_some_iff_isFirst hkey).mp hget
        have hfor := Condition.isFor_resolve a value ((operators.lookup key).getD .null)
        exact .condition (fun h => hvalue (Value.isEmpty_iff.mpr h)) hfirst hfor ih

/-- A compiled document has a rule for each pairing of an action with a resource, so there is one at
least, and an attachment for each additional resource that is not blank. Their conditions express
the picks: those of every rule the picks for the subject and for the resources, and those of every
attachment the picks for the additional resources. -/
theorem compile_conditions (hs : s.Compilable)
    (hkeys : ∀ side, ∀ entry ∈ (s.picks side).values, entry.1.isText = true)
    (hstem : stem.text = .ok start) :
    ∃ d, r.compile stem s = .ok d ∧
      d.rules.length = s.actions.length * s.resources.length ∧ 0 < d.rules.length ∧
      d.additionalResources.map Attachment.id =
        s.additionalResources.filter Value.isNonBlankText ∧
      (∀ rule ∈ d.rules,
        r.catalog.Expresses s.subjectPicks.operators s.subjectPicks.values
            rule.subjectConditions ∧
          r.catalog.Expresses s.resourcePicks.operators s.resourcePicks.values
            rule.objectConditions) ∧
      ∀ a ∈ d.additionalResources,
        r.catalog.Expresses s.additionalPicks.operators s.additionalPicks.values a.conditions := by
  refine ⟨_, Registry.compile_eq_document hs hstem, r.length_rules start s,
    List.length_pos_of_ne_nil (Registry.rules_ne_nil hs.complete), r.ids_attachments s,
    fun rule hrule => ?_, fun a ha => ?_⟩
  · obtain ⟨-, hsubject, hobject, -⟩ := Registry.eq_of_mem_rules hrule
    rw [hsubject, hobject]
    exact ⟨r.catalog.expresses_conditions _ (hkeys .subject),
      r.catalog.expresses_conditions _ (hkeys .resource)⟩
  · obtain ⟨id, -, rfl⟩ := List.mem_map.mp ha
    exact r.catalog.expresses_conditions _ (hkeys .additional)

/-- A catalog in which two attributes have the same identifier and one has an unknown data type. -/
def tickets : Catalog := .ofList [
  { id := .text "urgency", name := .text "urgency", displayName := .text "Urgency"
    dataType := .text "number" },
  { id := .text "urgency", name := .text "haste", displayName := .text "Haste" },
  { id := .text "labels", name := .text "labels", displayName := .text "Labels"
    dataType := .text "array" },
  { id := .text "colour", name := .text "colour", displayName := .text "Colour"
    dataType := .text "hue" }]

/-- A selection with operators that are on offer and operators that are not, an empty value, a key
that identifies nothing and a blank additional resource. -/
def ticketSelection : Selection where
  subject := .text "clerk"
  actions := [.text "read"]
  resources := [.text "ticket"]
  subjectPicks :=
    { values := [(.text "urgency", .int 0), (.text "age", .int 30)]
      operators := [(.text "urgency", .text "contains")] }
  resourcePicks :=
    { values := [(.text "labels", .list [.text "open"]), (.text "urgency", .text "")]
      operators := [(.text "labels", .text "not_includes")] }
  additionalResources := [.text " ", .text "archive"]
  additionalPicks :=
    { values := [(.text "colour", .tuple [.text "red"])]
      operators := [(.text "colour", .text "equals")] }

/-- The picks for tickets are expressed although the identifier of the urgency recurs: operators
that are not on offer give way, and the empty value, the unknown key and the blank additional
resource leave nothing. -/
theorem compile_conditions_tickets :
    ticketSelection.Compilable ∧
      (∀ side, ∀ entry ∈ (ticketSelection.picks side).values, entry.1.isText = true) ∧
      ∃ d, Registry.compile { catalog := tickets } (.unique 7) ticketSelection = .ok d ∧
        d.rules.length = 1 ∧ d.additionalResources.map Attachment.id = [.text "archive"] ∧
        (∀ rule ∈ d.rules,
          tickets.Expresses ticketSelection.subjectPicks.operators
              ticketSelection.subjectPicks.values rule.subjectConditions ∧
            tickets.Expresses ticketSelection.resourcePicks.operators
              ticketSelection.resourcePicks.values rule.objectConditions) ∧
        (∀ a ∈ d.additionalResources,
          tickets.Expresses ticketSelection.additionalPicks.operators
            ticketSelection.additionalPicks.values a.conditions) ∧
        d.rules.map Rule.subjectConditions =
          [[{ name := .text "urgency", operator := .text "equals", value := .int 0 }]] ∧
        d.rules.map Rule.objectConditions =
          [[{ name := .text "labels", operator := .text "not_includes"
              value := .list [.text "open"] }]] ∧
        d.additionalResources.map Attachment.conditions =
          [[{ name := .text "colour", operator := .text "in", value := .tuple [.text "red"] }]] := by
  have hs : ticketSelection.Compilable := ⟨rfl, rfl, rfl, by decide⟩
  have hkeys : ∀ side, ∀ entry ∈ (ticketSelection.picks side).values, entry.1.isText = true := by
    intro side
    cases side <;> decide
  have hstem : (Stem.unique 7).text = .ok _ := rfl
  obtain ⟨d, hd, hlength, -, hids, hrules, hattachments⟩ :=
    compile_conditions (r := { catalog := tickets }) hs hkeys hstem
  refine ⟨hs, hkeys, d, hd, hlength, hids, hrules, hattachments, ?_⟩
  -- There is one document only, and its lists are these.
  rw [Registry.compile_eq_document hs hstem, Except.ok.injEq] at hd
  subst hd
  exact ⟨rfl, rfl, rfl⟩

end PolicyAuthoring
