import PolicyAuthoring.Proofs.RoundTrip

/-!
# Conditions that collide

The conditions of a document may be filed under the same key: a name may recur, it may be the name
or the identifier of an attribute that another one finds, and numbers that are equal are one key.
Then the value under the key is that of the last of these conditions, while the operator is that of
the last one that has an operator (`picks_areOf_last_iff`). So the value and the operator need not
come from the same condition: if the last condition has no operator, it gets that of a condition
before it (`not_forall_exists_areOf`).
-/

namespace PolicyAuthoring

/-- The operator of a condition, if it has one. -/
def Condition.operator? (x : Condition) : Option Value :=
  if x.operator.truthy then some x.operator else none

/-- What is picked under a key is what a condition says: its value, and its operator if it has
one. -/
structure Picks.AreOf (picks : Picks) (key : Value) (x : Condition) : Prop where
  /-- The value is that of the condition. -/
  value : picks.values.lookup key = some x.value
  /-- The operator is that of the condition; there is none if the condition has none. -/
  operator : picks.operators.lookup key = x.operator?

/-- What is picked under a key is what a condition says. -/
theorem Picks.areOf_iff {picks : Picks} {key : Value} {x : Condition} :
    picks.AreOf key x ↔
      picks.values.lookup key = some x.value ∧ picks.operators.lookup key = x.operator? :=
  ⟨fun h => ⟨h.value, h.operator⟩, fun h => ⟨h.1, h.2⟩⟩

namespace Catalog

variable {c : Catalog} {category : Category} {conditions : List Condition} {picks : Picks}
  {key : Value}

/-- The conditions that are filed under a key. -/
def filedUnder (c : Catalog) (category : Category) (conditions : List Condition) (key : Value) :
    List Condition :=
  conditions.filter fun x => (c.filingKey category x.name).same key

/-- The value under a key is that of the last condition filed under it. -/
theorem lookup_filed_values
    (hkeys : ∀ x ∈ conditions, (c.filingKey category x.name).hashable = true)
    (hkey : key.hashable = true) :
    (c.filed category conditions).values.lookup key =
      ((c.filedUnder category conditions key).getLast?).map Condition.value := by
  rw [filed, Table.lookup_ofEntries (List.forall_mem_map.mpr hkeys) hkey, List.filter_map,
    List.getLast?_map, Option.map_map]
  rfl

/-- The operator under a key is that of the last condition filed under it that has one. -/
theorem lookup_filed_operators
    (hkeys : ∀ x ∈ conditions, (c.filingKey category x.name).hashable = true)
    (hkey : key.hashable = true) :
    (c.filed category conditions).operators.lookup key =
      ((c.filedUnder category conditions key).filterMap Condition.operator?).getLast? := by
  have hoperators : (c.filedUnder category conditions key).filterMap Condition.operator? =
      ((c.filedUnder category conditions key).filter fun x => x.operator.truthy).map
        Condition.operator := by
    rw [← List.filterMap_eq_map, List.filterMap_filter]
    rfl
  have hhashable : ∀ x ∈ conditions.filter fun x => x.operator.truthy,
      (c.filingKey category x.name).hashable = true :=
    fun x hx => hkeys x (List.mem_filter.mp hx).1
  rw [filed, Table.lookup_ofEntries (List.forall_mem_map.mpr hhashable) hkey, List.filter_map,
    List.getLast?_map, Option.map_map, hoperators, filedUnder, List.filter_comm, List.getLast?_map]
  rfl

/-- A key with a value is one under which a condition is filed, and a table can have it. -/
theorem hashable_of_mem_keys (h : c.picksOf category conditions = .ok picks)
    (hkey : key ∈ picks.values.keys) : key.hashable = true := by
  obtain ⟨hkeys, rfl⟩ := eq_filed_of_picksOf h
  obtain ⟨x, hx, rfl⟩ := exists_of_mem_keys_filed hkey
  exact hkeys x hx

end Catalog

variable {c : Catalog} {d : Document} {s : Selection}

/-- For every key that has a value on a side of a reopened document, the value is that of the last
condition filed under the key, and the operator is that of the last one that has an operator. Both
are those of the last condition exactly if it has an operator or no condition before it has one.
Both are those of one condition at all exactly if this is so, or else if a condition before it has
the same value as the last one and the last operator that there is. -/
theorem picks_areOf_last_iff (hs : c.hydrate d = .ok s) (side : Side) {key : Value}
    (hkey : key ∈ (s.picks side).values.keys) :
    ∃ earlier last, c.filedUnder side.category (d.conditionsOn side) key = earlier ++ [last] ∧
      (s.picks side).values.lookup key = some last.value ∧
      (s.picks side).operators.lookup key =
        last.operator?.or (earlier.filterMap Condition.operator?).getLast? ∧
      ((s.picks side).AreOf key last ↔
        last.operator?.isSome = true ∨ ∀ x ∈ earlier, x.operator? = none) ∧
      ((∃ x ∈ earlier ++ [last], (s.picks side).AreOf key x) ↔
        (last.operator?.isSome = true ∨ ∀ x ∈ earlier, x.operator? = none) ∨
          ∃ x ∈ earlier, x.value = last.value ∧
            x.operator? = (earlier.filterMap Condition.operator?).getLast?) := by
  have hpicks := Catalog.picksOf_of_hydrate hs side
  have hhashable := Catalog.hashable_of_mem_keys hpicks hkey
  obtain ⟨hkeys, hfiled⟩ := Catalog.eq_filed_of_picksOf hpicks
  have hvalue := Catalog.lookup_filed_values hkeys hhashable
  have hoperator := Catalog.lookup_filed_operators hkeys hhashable
  rw [← hfiled] at hvalue hoperator
  -- Something is stored under the key, so a condition is filed under it.
  obtain ⟨entry, hentry, rfl⟩ := List.mem_map.mp hkey
  have hsome := Table.lookup_of_mem (Catalog.distinct_of_picksOf hpicks) hentry
  rw [hsome] at hvalue
  obtain ⟨last, hlast, hvalue⟩ := Option.map_eq_some_iff.mp hvalue.symm
  obtain ⟨earlier, hsplit⟩ := List.getLast?_eq_some_iff.mp hlast
  have hoperator : (s.picks side).operators.lookup entry.1 =
      last.operator?.or (earlier.filterMap Condition.operator?).getLast? := by
    rw [hoperator, hsplit, List.filterMap_append, List.getLast?_append]
    cases h : last.operator? <;> simp [h]
  have hvalue : (s.picks side).values.lookup entry.1 = some last.value := by rw [hsome, hvalue]
  have hareOf (x : Condition) : (s.picks side).AreOf entry.1 x ↔ x.value = last.value ∧
      x.operator? = last.operator?.or (earlier.filterMap Condition.operator?).getLast? := by
    rw [Picks.areOf_iff, hvalue, hoperator, Option.some.injEq, eq_comm, @eq_comm _ x.operator?]
  have hlastIff : (s.picks side).AreOf entry.1 last ↔
      last.operator?.isSome = true ∨ ∀ x ∈ earlier, x.operator? = none := by
    rw [hareOf, and_iff_right rfl]
    cases last.operator? with
    | some operator => simp
    | none => simp [eq_comm]
  refine ⟨earlier, last, hsplit, hvalue, hoperator, hlastIff, ?_⟩
  simp only [List.mem_append, List.mem_singleton, or_and_right, exists_or, exists_eq_left]
  rw [hlastIff, or_comm]
  -- If it is not the last condition, the last one has no operator to give.
  refine or_congr_right' fun hnot => exists_congr fun x => and_congr_right fun _ => ?_
  have hnone : last.operator? = none := by
    rw [not_or, Bool.not_eq_true, Option.isSome_eq_false_iff, Option.isNone_iff_eq_none] at hnot
    exact hnot.1
  rw [hareOf, hnone, Option.none_or]

/-- A condition that asks for a level above three. -/
def aboveThree : Condition where
  name := .text "level"
  operator := .text "greater_than"
  value := .int 3

/-- A condition about level five, which names the attribute by its identifier and has no operator.
-/
def levelFive : Condition where
  name := .text "clearance"
  operator := .text ""
  value := .int 5

/-- The mapping of a document with both conditions on the subject. -/
def twoLevels : Value := .mapping [
  (.text "name", .text "Reading"),
  (.text "actions", .list [.text "read"]),
  (.text "resources", .list [.text "file"]),
  (.text "rules", .list [.mapping [
    (.text "subject", .mapping [
      (.text "type", .text "clerk"),
      (.text "attributes", .list [
        .mapping [(.text "name", .text "level"), (.text "operator", .text "greater_than"),
          (.text "value", .int 3)],
        .mapping [(.text "name", .text "clearance"), (.text "value", .int 5)]])])]])]

/-- Both conditions are filed under the clearance. -/
theorem exists_hydrate_twoLevels :
    ∃ d s, Document.ofValue twoLevels = .ok d ∧ levels.hydrate d = .ok s ∧
      .text "clearance" ∈ (s.picks .subject).values.keys ∧
      levels.filedUnder .subject (d.conditionsOn .subject) (.text "clearance") =
        [aboveThree, levelFive] :=
  ⟨_, _, rfl, rfl, List.mem_singleton_self _, rfl⟩

/-- The clearance has the value of the second condition and the operator of the first, and neither
condition says both. -/
theorem picks_areOf_last_iff_twoLevels :
    ∃ d s, Document.ofValue twoLevels = .ok d ∧ levels.hydrate d = .ok s ∧
      .text "clearance" ∈ (s.picks .subject).values.keys ∧
      (s.picks .subject).values.lookup (.text "clearance") = some levelFive.value ∧
      (s.picks .subject).operators.lookup (.text "clearance") = some aboveThree.operator ∧
      ¬ (s.picks .subject).AreOf (.text "clearance") levelFive ∧
      ¬ ∃ x ∈ [aboveThree, levelFive], (s.picks .subject).AreOf (.text "clearance") x := by
  obtain ⟨d, s, hd, hs, hkey, hboth⟩ := exists_hydrate_twoLevels
  obtain ⟨earlier, last, hfiled, hvalue, hoperator, hareOf, hsome⟩ :=
    picks_areOf_last_iff hs .subject hkey
  have hsplit : [aboveThree] ++ [levelFive] = earlier ++ [last] := hboth.symm.trans hfiled
  obtain ⟨rfl, hlast⟩ := List.append_inj' hsplit rfl
  cases hlast
  -- The second condition has no operator, the first one has, and their values differ.
  have hnot : ¬ (levelFive.operator?.isSome = true ∨ ∀ x ∈ [aboveThree], x.operator? = none) := by
    rintro (hpresent | hnone)
    · cases hpresent
    · cases hnone aboveThree (List.mem_singleton_self _)
  refine ⟨d, s, hd, hs, hkey, hvalue, hoperator, fun h => hnot (hareOf.mp h), fun h => ?_⟩
  obtain hlast | ⟨x, hx, hequal, -⟩ := hsome.mp h
  · exact hnot hlast
  · cases List.mem_singleton.mp hx
    cases hequal

/-- The value and the operator under a key are not always those of one condition. -/
theorem not_forall_exists_areOf :
    ¬ ∀ (c : Catalog) (v : Value) (d : Document) (s : Selection), Document.ofValue v = .ok d →
      c.hydrate d = .ok s → ∀ side, ∀ key ∈ (s.picks side).values.keys,
        ∃ x ∈ c.filedUnder side.category (d.conditionsOn side) key,
          (s.picks side).AreOf key x := by
  intro h
  obtain ⟨d, s, hd, hs, hkey, hboth⟩ := exists_hydrate_twoLevels
  obtain ⟨x, hx, hareOf⟩ := h levels twoLevels d s hd hs .subject _ hkey
  cases hd
  cases hs
  rw [Side.category, hboth, List.mem_cons, List.mem_singleton] at hx
  rcases hx with rfl | rfl
  · cases hareOf.value
  · cases hareOf.operator

end PolicyAuthoring
