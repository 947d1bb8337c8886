import PolicyAuthoring.Proofs.Value.Guarded
import PolicyAuthoring.Proofs.Catalog
import PolicyAuthoring.Proofs.Operator

/-!
# Filing conditions

Reopening a document files its conditions as picks. In a catalog with distinct identifiers filing
cannot fail for conditions that were compiled against the catalog, and `filed` says what comes of
it: two tables filled entry by entry, one with the values and one with the operators.

Compiling makes clauses of picks. When the conditions of clauses are filed and compiled again,
each new clause is about the attribute that the name of an old one finds
(`exists_of_mem_clauses_filed`), and if the names find different attributes, the new clauses are the
old ones with the attributes exchanged (`clauses_filed_of_targets`).
-/

namespace PolicyAuthoring

namespace Catalog

variable {c : Catalog} {category : Category}

/-! ## Filing as two tables -/

/-- The picks that conditions are filed as. -/
def filed (c : Catalog) (category : Category) (conditions : List Condition) : Picks where
  values := Table.ofEntries
    (conditions.map fun x => (c.filingKey category x.name, x.value))
  operators := Table.ofEntries
    ((conditions.filter fun x => x.operator.truthy).map fun x =>
      (c.filingKey category x.name, x.operator))

/-- Filing conditions under keys that a table can have succeeds. -/
theorem picksOf_eq_filed {conditions : List Condition}
    (hkeys : ∀ x ∈ conditions, (c.filingKey category x.name).hashable = true) :
    c.picksOf category conditions = .ok (c.filed category conditions) := by
  induction conditions using List.reverseRecOn with
  | nil => rfl
  | append_singleton conditions last ih =>
    -- The last condition is filed last, on top of the tables of the others.
    have ih := ih fun x hx => hkeys x (List.mem_append_left _ hx)
    have hlast := Value.asKey_of_hashable (hkeys last (by simp))
    rw [picksOf] at ih ⊢
    rw [List.foldlM_append, ih]
    simp only [List.foldlM_cons, List.foldlM_nil, file, hlast, filed, List.map_append,
      List.map_cons, List.map_nil, List.filter_append, Table.ofEntries_concat, bind, Except.bind,
      pure, Except.pure]
    cases htruthy : last.operator.truthy with
    | false => simp [htruthy]
    | true => simp [htruthy, Table.ofEntries_concat]

/-- Conditions are filed exactly if the keys under which they are filed can be keys. -/
theorem guarded_picksOf (c : Catalog) (category : Category) (conditions : List Condition) :
    Guarded (c.picksOf category conditions)
      (∀ x ∈ conditions, (c.filingKey category x.name).hashable = true) ShapeFault.IsKindFault := by
  rw [picksOf]
  exact Guarded.foldlM (fun _ x => (c.filingKey category x.name).guarded_asKey.bind_ok) _ conditions

/-- Conditions that have been filed have keys that a table can have. -/
theorem eq_filed_of_picksOf {conditions : List Condition} {picks : Picks}
    (h : c.picksOf category conditions = .ok picks) :
    (∀ x ∈ conditions, (c.filingKey category x.name).hashable = true) ∧
      picks = c.filed category conditions := by
  have hkeys := (c.guarded_picksOf category conditions).exists_ok_iff.mp ⟨picks, h⟩
  rw [picksOf_eq_filed hkeys, Except.ok.injEq] at h
  exact ⟨hkeys, h.symm⟩

/-- The values that conditions are filed as have distinct keys. -/
theorem distinct_of_picksOf {conditions : List Condition} {picks : Picks}
    (h : c.picksOf category conditions = .ok picks) : Table.Distinct picks.values := by
  rw [(eq_filed_of_picksOf h).2]
  exact Table.distinct_ofEntries _

/-- Filed conditions have the keys under which they are filed, each where it occurs first. -/
theorem keys_filed (c : Catalog) (category : Category) (conditions : List Condition) :
    (c.filed category conditions).values.keys =
      Table.firstKeys (conditions.map fun x => c.filingKey category x.name) := by
  rw [filed, Table.keys_ofEntries, List.map_map]
  rfl

/-- A key with a value is one under which a condition is filed. -/
theorem exists_of_mem_keys_filed {conditions : List Condition} {key : Value}
    (hkey : key ∈ (c.filed category conditions).values.keys) :
    ∃ x ∈ conditions, c.filingKey category x.name = key := by
  rw [keys_filed] at hkey
  exact List.mem_map.mp (Table.mem_of_mem_firstKeys hkey)

/-- A text under which a condition is filed is a key with a value. -/
theorem filingKey_mem_keys_filed {conditions : List Condition} {x : Condition}
    (hx : x ∈ conditions) (htext : (c.filingKey category x.name).isText = true) :
    c.filingKey category x.name ∈ (c.filed category conditions).values.keys := by
  rw [keys_filed, Table.mem_firstKeys_iff htext]
  exact List.mem_map_of_mem hx

/-- A condition is filed under the identifier of an attribute exactly when its name finds the
attribute. -/
theorem Identified.filingKey_eq_id_iff (hc : c.Identified) {a : Attribute} {name : Value}
    (ha : a ∈ c.attributes) :
    c.filingKey category name = a.id ↔ c.resolve? category name = some a := by
  rw [filingKey]
  cases hfind : c.resolve? category name with
  | some b =>
    rw [Option.map_some, Option.getD_some, Option.some.injEq]
    exact ⟨hc.eq_of_id_eq (mem_of_resolve? hfind).1 ha, fun h => congrArg Attribute.id h⟩
  | none =>
    -- A name that finds nothing is no identifier either.
    have hnone := resolve?_eq_none_iff.mp hfind a ha
    rw [Attribute.answersTo, Bool.or_eq_false_iff] at hnone
    refine ⟨fun h => ?_, fun h => by cases h⟩
    have h : name = a.id := h
    rw [(Value.equals_iff_of_isText (hc.id_text a ha)).mpr h.symm] at hnone
    cases hnone.2

/-- A condition on an attribute of the catalog is filed under a key that a table can have. -/
theorem Identified.hashable_filingKey (hc : c.Identified) {a : Attribute} (ha : a ∈ c.attributes) :
    (c.filingKey category a.name).hashable = true := by
  rw [filingKey]
  cases hfind : c.resolve? category a.name with
  | some b => exact Value.hashable_of_isText (hc.id_text b (mem_of_resolve? hfind).1)
  | none =>
    -- Only the datum that is not a number does not equal itself.
    have hnone := resolve?_eq_none_iff.mp hfind a ha
    rw [Attribute.answersTo, Bool.or_eq_false_iff, Value.equals, Value.same_self, Bool.and_true,
      Bool.not_eq_false'] at hnone
    exact Value.hashable_of_isNaN hnone.1

/-! ## Clauses -/

variable {picks : Picks} {x y : Clause} {clauses : List Clause}

/-- A clause comes from an entry with a value that is not empty, whose key leads to the attribute of
the clause. -/
theorem mem_clauses_iff : x ∈ c.clauses picks ↔
    ∃ entry ∈ picks.values, entry.2.isEmpty = false ∧ c.get? entry.1 = some x.definition ∧
      x.operator = Operator.resolve x.definition entry.2
        ((picks.operators.lookup entry.1).getD .null) ∧ x.value = entry.2 := by
  rw [Catalog.clauses, List.mem_filterMap]
  constructor
  · rintro ⟨entry, hentry, hclause⟩
    rw [clause?] at hclause
    split at hclause
    · cases hclause
    next hvalue =>
      obtain ⟨a, hget, rfl⟩ := Option.map_eq_some_iff.mp hclause
      exact ⟨entry, hentry, by simpa using hvalue, hget, rfl, rfl⟩
  · rintro ⟨entry, hentry, hvalue, hget, hoperator, heq⟩
    refine ⟨entry, hentry, ?_⟩
    rw [clause?, hvalue, if_neg Bool.false_ne_true, hget, Option.map_some, ← hoperator, ← heq]

/-- The attribute of a clause is in the index. -/
theorem exists_of_mem_clauses (hx : x ∈ c.clauses picks) :
    ∃ entry ∈ c.byId, entry.2 = x.definition := by
  obtain ⟨_, -, -, hget, -⟩ := mem_clauses_iff.mp hx
  obtain ⟨entry, hentry, hdefinition⟩ := Option.map_eq_some_iff.mp hget
  exact ⟨entry, List.mem_of_find?_eq_some hentry, hdefinition⟩

/-- A clause comes from an entry with a value that is not empty, under the identifier of its
attribute, if identifiers do not recur. -/
theorem Identified.mem_clauses_iff (hc : c.Identified) :
    x ∈ c.clauses picks ↔
      x.definition ∈ c.attributes ∧ (x.definition.id, x.value) ∈ picks.values ∧
        x.value.isEmpty = false ∧
        x.operator = Operator.resolve x.definition x.value
          ((picks.operators.lookup x.definition.id).getD .null) := by
  rw [Catalog.mem_clauses_iff]
  constructor
  · rintro ⟨⟨key, value⟩, hmem, hvalue, hget, hoperator, heq⟩
    obtain ⟨ha, rfl⟩ := hc.get?_eq_some_iff.mp hget
    obtain rfl : x.value = value := heq
    exact ⟨ha, hmem, hvalue, hoperator⟩
  · rintro ⟨ha, hmem, hvalue, hoperator⟩
    exact ⟨_, hmem, hvalue, hc.get?_id ha, hoperator, rfl⟩

/-- The operator of a clause is one that its attribute offers for its value. -/
theorem Identified.operator_mem_domain (hc : c.Identified) (hx : x ∈ c.clauses picks) :
    x.operator ∈ Operator.domain x.definition x.value := by
  rw [(hc.mem_clauses_iff.mp hx).2.2.2]
  exact Operator.resolve_mem_domain _ _ _

/-- The clauses that picks with distinct keys make are about different attributes. -/
theorem Identified.nodup_definitions (hc : c.Identified) (hpicks : Table.Distinct picks.values) :
    ((c.clauses picks).map fun x => x.definition.id).Nodup := by
  rw [Catalog.clauses, List.map_filterMap, List.Nodup, List.pairwise_filterMap]
  refine List.Pairwise.imp (fun {e f} hne k hk l hl heq => ?_) hpicks
  have hkey {e : Value × Value} {k : Value}
      (hk : (c.clause? picks.operators e).map (fun x => x.definition.id) = some k) :
      e.1 = k ∧ k.isText = true := by
    obtain ⟨x, hx, rfl⟩ := Option.map_eq_some_iff.mp hk
    rw [clause?] at hx
    split at hx
    · cases hx
    next hvalue =>
      obtain ⟨a, ha, rfl⟩ := Option.map_eq_some_iff.mp hx
      obtain ⟨ha, hid⟩ := hc.get?_eq_some_iff.mp ha
      exact ⟨hid.symm, hc.id_text a ha⟩
  -- Two clauses about one attribute would come from entries with the same key.
  obtain ⟨hk, htext⟩ := hkey hk
  rw [hk, (hkey hl).1, ← heq, (Value.same_iff_of_isText htext).mpr rfl] at hne
  cases hne

/-! ## Clauses filed again -/

/-- A clause made of filed clauses is about an attribute that the name of one of them finds. -/
theorem Identified.exists_of_mem_clauses_filed (hc : c.Identified)
    (hy : y ∈ c.clauses (c.filed category (clauses.map Clause.condition))) :
    ∃ x ∈ clauses, c.resolve? category x.definition.name = some y.definition := by
  obtain ⟨hmem, hentry, -, -⟩ := hc.mem_clauses_iff.mp hy
  -- The entry has a key that a condition was filed under, and it is an identifier.
  have hkey := Table.key_of_mem_ofEntries hentry
  rw [List.map_map, List.map_map, List.mem_map] at hkey
  obtain ⟨x, hx, hxkey⟩ := hkey
  exact ⟨x, hx, (hc.filingKey_eq_id_iff hmem).mp hxkey⟩

/-- The keys of filed clauses that are texts are those that their names lead to. -/
theorem contains_filed_values {key : Value} (hkey : key.isText = true) :
    (c.filed category (clauses.map Clause.condition)).values.contains key = true ↔
      ∃ x ∈ clauses, c.filingKey category x.definition.name = key := by
  rw [filed, Table.contains_ofEntries hkey, List.map_map, List.map_map, List.mem_map]
  rfl

section Targets

variable {target : Clause → Attribute} (hc : c.Identified)
  (htarget : ∀ x ∈ clauses, c.resolve? category x.definition.name = some (target x))
  (hnodup : (clauses.map fun x => (target x).id).Nodup)

include hc htarget hnodup

/-- The identifiers of the attributes that the names find are distinct keys. -/
theorem Identified.distinct_targets (f : Clause → Value) :
    Table.Distinct (clauses.map fun x => ((target x).id, f x)) := by
  refine Table.distinct_of_nodup (fun e he => ?_) ?_
  · obtain ⟨x, hx, rfl⟩ := List.mem_map.mp he
    exact hc.id_text _ (mem_of_resolve? (htarget x hx)).1
  · rw [List.map_map]
    exact hnodup

/-- Clauses whose names find different attributes are filed under the identifiers of these. -/
theorem Identified.filed_of_targets :
    c.filed category (clauses.map Clause.condition) =
      { values := clauses.map fun x => ((target x).id, x.value)
        operators := clauses.map fun x => ((target x).id, .text x.operator.word) } := by
  have hkey {x : Clause} (hx : x ∈ clauses) :
      c.filingKey category x.condition.name = (target x).id :=
    (hc.filingKey_eq_id_iff (mem_of_resolve? (htarget x hx)).1).mpr (htarget x hx)
  have hdistinct := hc.distinct_targets htarget hnodup
  have hfilter : ((clauses.map Clause.condition).filter fun x => x.operator.truthy) =
      clauses.map Clause.condition := by
    rw [List.filter_eq_self]
    intro d hd
    obtain ⟨x, -, rfl⟩ := List.mem_map.mp hd
    exact Operator.truthy_word x.operator
  rw [filed, hfilter, List.map_map, List.map_map]
  -- No key recurs, so both tables list the entries that they are filled with.
  congr 1
  · rw [← Table.ofEntries_eq_self (hdistinct Clause.value)]
    refine congrArg Table.ofEntries (List.map_congr_left fun x hx => ?_)
    rw [Function.comp_apply, hkey hx]
    rfl
  · rw [← Table.ofEntries_eq_self (hdistinct fun x => .text x.operator.word)]
    refine congrArg Table.ofEntries (List.map_congr_left fun x hx => ?_)
    rw [Function.comp_apply, hkey hx]
    rfl

/-- Clauses whose names find different attributes become clauses about these, with operators that
these offer. -/
theorem Identified.clauses_filed_of_targets (hvalue : ∀ x ∈ clauses, x.value.isEmpty = false) :
    c.clauses (c.filed category (clauses.map Clause.condition)) =
      clauses.map fun x =>
        { definition := target x
          operator := Operator.resolve (target x) x.value (.text x.operator.word)
          value := x.value } := by
  rw [hc.filed_of_targets htarget hnodup, Catalog.clauses, List.filterMap_map]
  refine (List.filterMap_congr fun x hx => ?_).trans (congrFun List.filterMap_eq_map clauses)
  have hmem := (mem_of_resolve? (htarget x hx)).1
  have hlookup : Table.lookup (clauses.map fun x => ((target x).id, Value.text x.operator.word))
      (target x).id = some (.text x.operator.word) :=
    Table.lookup_of_mem (hc.distinct_targets htarget hnodup _) (List.mem_map_of_mem hx)
  rw [Function.comp_apply, clause?, hvalue x hx, if_neg Bool.false_ne_true, hc.get?_id hmem,
    Option.map_some, hlookup, Option.getD_some]
  rfl

end Targets

end Catalog

end PolicyAuthoring
