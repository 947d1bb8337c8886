import PolicyAuthoring.Sentence

/-!
# Alternatives in a condition

A condition on a sequence is met by any of its items, so a sentence puts "or" between them. The
items may be sequences again, but a sentence shows no brackets: what it says of a value is what it
says of the alternatives in it, however they are grouped (`formatValue_alternatives`). Only an empty
sequence leaves a trace, an "or" with nothing on one side of it, so the sequences here have items
(`Value.Filled`) wherever that matters.
-/

namespace PolicyAuthoring

/-! ## Joining what is joined -/

namespace Text

/-- Joining what was joined with the same separator is joining everything, if there was something to
join each time. -/
theorem joinCodes_map_joinCodes {separator : String} {parts : List (List CodePoints)}
    (h : ∀ part ∈ parts, part ≠ []) :
    joinCodes separator (parts.map (joinCodes separator)) = joinCodes separator parts.flatten := by
  induction parts with
  | nil => rfl
  | cons part parts ih =>
    rw [List.forall_mem_cons] at h
    cases parts with
    | nil => rw [List.map_singleton, joinCodes_singleton, List.flatten_singleton]
    | cons next parts =>
      have hflatten : (next :: parts).flatten ≠ [] :=
        List.flatten_ne_nil_iff.mpr ⟨next, List.mem_cons_self .., h.2 next (List.mem_cons_self ..)⟩
      rw [List.map_cons, List.map_cons, joinCodes_cons_cons, ← List.map_cons, ih h.2,
        ← joinCodes_append h.1 hflatten]
      rfl

end Text

/-! ## Alternatives and how they are grouped -/

namespace Value

/-- A value in which every sequence has items, at every depth. -/
inductive Filled : Value → Prop
  | single {v : Value} (h : v.isSequence = false) : Filled v
  | list {items : List Value} (hne : items ≠ []) (hitems : ∀ v ∈ items, Filled v) :
      Filled (.list items)
  | tuple {items : List Value} (hne : items ≠ []) (hitems : ∀ v ∈ items, Filled v) :
      Filled (.tuple items)

mutual

/-- The values in a value that are no sequences, from left to right. -/
def alternatives : Value → List Value
  | .list items => itemAlternatives items
  | .tuple items => itemAlternatives items
  | v => [v]
termination_by structural v => v

/-- The alternatives in items, from left to right. -/
def itemAlternatives : List Value → List Value
  | [] => []
  | v :: rest => alternatives v ++ itemAlternatives rest
termination_by structural vs => vs

end

mutual

/-- The value with lists in place of tuples, at every depth. -/
def plainNested : Value → Value
  | .list items => .list (plainItems items)
  | .tuple items => .list (plainItems items)
  | v => v
termination_by structural v => v

/-- The items with lists in place of tuples. -/
def plainItems : List Value → List Value
  | [] => []
  | v :: rest => plainNested v :: plainItems rest
termination_by structural vs => vs

end

variable {v : Value} {items : List Value}

theorem itemAlternatives_eq_flatMap (items : List Value) :
    itemAlternatives items = items.flatMap alternatives := by
  induction items with
  | nil => rfl
  | cons v rest ih => rw [itemAlternatives, ih, List.flatMap_cons]

theorem alternatives_of_single (h : v.isSequence = false) : v.alternatives = [v] := by
  cases v with
  | list | tuple => cases h
  | _ => rfl

/-- There is an alternative among items if there is one in each of them. -/
theorem itemAlternatives_ne_nil (hne : items ≠ []) (h : ∀ v ∈ items, v.alternatives ≠ []) :
    itemAlternatives items ≠ [] := by
  obtain ⟨v, hv⟩ := List.exists_mem_of_ne_nil items hne
  obtain ⟨a, ha⟩ := List.exists_mem_of_ne_nil _ (h v hv)
  rw [itemAlternatives_eq_flatMap]
  exact List.ne_nil_of_mem (List.mem_flatMap.mpr ⟨v, hv, ha⟩)

/-- A value without empty sequences has an alternative. -/
theorem Filled.alternatives_ne_nil (h : v.Filled) : v.alternatives ≠ [] := by
  induction h with
  | single h =>
    rw [alternatives_of_single h]
    exact List.cons_ne_nil _ _
  | list hne _ ih => exact itemAlternatives_ne_nil hne ih
  | tuple hne _ ih => exact itemAlternatives_ne_nil hne ih

theorem isSequence_of_mem_itemAlternatives
    (h : ∀ v ∈ items, ∀ a ∈ v.alternatives, a.isSequence = false) :
    ∀ a ∈ itemAlternatives items, a.isSequence = false := by
  intro a ha
  rw [itemAlternatives_eq_flatMap] at ha
  obtain ⟨v, hv, ha⟩ := List.mem_flatMap.mp ha
  exact h v hv a ha

/-- No alternative is a sequence. -/
theorem Filled.isSequence_of_mem_alternatives (h : v.Filled) :
    ∀ a ∈ v.alternatives, a.isSequence = false := by
  induction h with
  | single h =>
    rw [alternatives_of_single h]
    exact List.forall_mem_singleton.mpr h
  | list _ _ ih => exact isSequence_of_mem_itemAlternatives ih
  | tuple _ _ ih => exact isSequence_of_mem_itemAlternatives ih

end Value

/-! ## What a sentence says -/

namespace Sentence

open Value

variable {v : Value} {items xs ys : List Value}

theorem formatValues_eq_map (items : List Value) : formatValues items = items.map formatValue := by
  induction items with
  | nil => rfl
  | cons v rest ih => rw [formatValues, ih, List.map_cons]

theorem formatValues_ne_nil (h : items ≠ []) : formatValues items ≠ [] := by
  rw [formatValues_eq_map]
  exact fun hnil => h (List.map_eq_nil_iff.mp hnil)

/-- Alternatives read the same in a tuple and in a list. -/
theorem formatValue_plainValue (v : Value) :
    formatValue (Condition.plainValue v) = formatValue v := by
  cases v <;> rfl

mutual

/-- Alternatives read the same with lists in place of tuples at every depth. -/
theorem formatValue_plainNested : ∀ v : Value, formatValue v.plainNested = formatValue v
  | .list items => by rw [plainNested, formatValue, formatValue, formatValues_plainItems items]
  | .tuple items => by rw [plainNested, formatValue, formatValue, formatValues_plainItems items]
  | .null => rfl
  | .bool _ => rfl
  | .int _ => rfl
  | .float _ => rfl
  | .text _ => rfl
  | .unpaired _ => rfl
  | .mapping _ => rfl
  | .set _ => rfl
  | .date _ => rfl
  | .datetime _ => rfl
termination_by structural v => v

theorem formatValues_plainItems : ∀ vs : List Value,
    formatValues (plainItems vs) = formatValues vs
  | [] => rfl
  | v :: rest => by
    rw [plainItems, formatValues, formatValue_plainNested v, formatValues_plainItems rest,
      formatValues]
termination_by structural vs => vs

end

/-- The text of items is made of the texts of the alternatives in them. -/
theorem joinCodes_formatValues (hfilled : ∀ v ∈ items, v.Filled)
    (h : ∀ v ∈ items,
      formatValue v = Text.joinCodes " or " (v.alternatives.map formatValue)) :
    Text.joinCodes " or " (formatValues items) =
      Text.joinCodes " or " ((itemAlternatives items).map formatValue) := by
  -- The items are parts of one list of alternatives, each of them joined in its turn.
  let parts := items.map fun v => v.alternatives.map formatValue
  have hparts : ∀ part ∈ parts, part ≠ [] := by
    intro part hpart
    obtain ⟨v, hv, rfl⟩ := List.mem_map.mp hpart
    exact fun hnil => (hfilled v hv).alternatives_ne_nil (List.map_eq_nil_iff.mp hnil)
  calc Text.joinCodes " or " (formatValues items)
      = Text.joinCodes " or " (parts.map (Text.joinCodes " or ")) := by
        rw [formatValues_eq_map, List.map_map]
        exact congrArg _ (List.map_congr_left h)
    _ = Text.joinCodes " or " parts.flatten := Text.joinCodes_map_joinCodes hparts
    _ = Text.joinCodes " or " ((itemAlternatives items).map formatValue) := by
        rw [itemAlternatives_eq_flatMap, List.map_flatMap, List.flatMap_def]

/-- A value without empty sequences reads as its alternatives with "or" between them. -/
theorem formatValue_of_filled (h : v.Filled) :
    formatValue v = Text.joinCodes " or " (v.alternatives.map formatValue) := by
  induction h with
  | single h => rw [alternatives_of_single h, List.map_singleton, Text.joinCodes_singleton]
  | list _ hitems ih => exact joinCodes_formatValues hitems ih
  | tuple _ hitems ih => exact joinCodes_formatValues hitems ih

/-- Items read the same in groups of any size as one by one. -/
theorem formatValue_groups {groups : List (List Value)} (h : ∀ group ∈ groups, group ≠ []) :
    formatValue (.list (groups.map .list)) = formatValue (.list groups.flatten) := by
  let parts := groups.map formatValues
  have hparts : ∀ part ∈ parts, part ≠ [] := by
    intro part hpart
    obtain ⟨group, hgroup, rfl⟩ := List.mem_map.mp hpart
    exact formatValues_ne_nil (h group hgroup)
  have hgrouped : formatValues (groups.map .list) = parts.map (Text.joinCodes " or ") := by
    rw [formatValues_eq_map, List.map_map, List.map_map]
    rfl
  have hflat : formatValues groups.flatten = parts.flatten := by
    rw [formatValues_eq_map, List.map_flatten]
    simp only [parts, funext formatValues_eq_map]
  rw [formatValue, formatValue, hgrouped, hflat, Text.joinCodes_map_joinCodes hparts]

/-- The items of two sequences read one after the other with an "or" between them. -/
theorem formatValues_append (hxs : xs ≠ []) (hys : ys ≠ []) :
    Text.joinCodes " or " (formatValues (xs ++ ys)) =
      Text.joinCodes " or " (formatValues xs) ++ " or " ++
        Text.joinCodes " or " (formatValues ys) := by
  have happend : formatValues (xs ++ ys) = formatValues xs ++ formatValues ys := by
    simp only [formatValues_eq_map, List.map_append]
  rw [happend, Text.joinCodes_append (formatValues_ne_nil hxs) (formatValues_ne_nil hys)]

/-- A value without empty sequences reads as the alternatives in it, none of which is a sequence,
with "or" between them. So two such values with the same alternatives read the same. Items read the
same in groups as one by one, sequences the same as tuples and as lists, at every depth and in the
value of a stored condition, and the items of two sequences one after the other with an "or" between
them. -/
theorem formatValue_alternatives :
    (∀ v : Value, v.Filled →
      v.alternatives ≠ [] ∧ (∀ a ∈ v.alternatives, a.isSequence = false) ∧
        formatValue v = Text.joinCodes " or " (v.alternatives.map formatValue)) ∧
    (∀ v w : Value, v.Filled → w.Filled → v.alternatives = w.alternatives →
      formatValue v = formatValue w) ∧
    (∀ groups : List (List Value), (∀ group ∈ groups, group ≠ []) →
      formatValue (.list (groups.map .list)) = formatValue (.list groups.flatten)) ∧
    (∀ v : Value, formatValue v.plainNested = formatValue v ∧
      formatValue (Condition.plainValue v) = formatValue v) ∧
    (∀ xs ys : List Value, xs ≠ [] → ys ≠ [] →
      formatValue (.list (xs ++ ys)) =
        formatValue (.list xs) ++ " or " ++ formatValue (.list ys) ∧
      formatValue (.tuple (xs ++ ys)) =
        formatValue (.tuple xs) ++ " or " ++ formatValue (.tuple ys)) := by
  refine ⟨fun v hv => ?_, fun v w hv hw halternatives => ?_, fun groups => formatValue_groups,
    fun v => ?_, fun xs ys hxs hys => ?_⟩
  · exact ⟨hv.alternatives_ne_nil, hv.isSequence_of_mem_alternatives, formatValue_of_filled hv⟩
  · rw [formatValue_of_filled hv, formatValue_of_filled hw, halternatives]
  · exact ⟨formatValue_plainNested v, formatValue_plainValue v⟩
  · exact ⟨formatValues_append hxs hys, formatValues_append hxs hys⟩

/-- Regions, some of them in a tuple of their own. -/
def regions : Value := .list [.text "EU", .tuple [.text "UK", .list [.text "US"]]]

/-- The regions read as three alternatives, and as they do in a tuple of two and one. -/
theorem formatValue_alternatives_regions :
    formatValue regions = "EU or UK or US" ∧
      formatValue regions =
        formatValue (.tuple [.list [.text "EU", .text "UK"], .text "US"]) ∧
      formatValue (.list ([.text "EU"] ++ [.text "UK"])) = "EU or UK" := by
  obtain ⟨hjoin, hsame, -, -, happend⟩ := formatValue_alternatives
  have htext (s : String) : (Value.text s).Filled := .single rfl
  have hregions : regions.Filled := by
    refine .list (by decide) ?_
    simp [htext, Filled.tuple, Filled.list]
  have hpair : (Value.tuple [.list [.text "EU", .text "UK"], .text "US"]).Filled := by
    refine .tuple (by decide) ?_
    simp [htext, Filled.list]
  refine ⟨?_, hsame _ _ hregions hpair rfl, ?_⟩
  · rw [(hjoin regions hregions).2.2]
    rfl
  · rw [(happend _ _ (by decide) (by decide)).1]
    rfl

/-- An empty sequence is no alternative, but the "or" before the next item stays. -/
example : formatValue (.list [.list [], .text "EU"]) = " or EU" := by decide

end Sentence

end PolicyAuthoring
