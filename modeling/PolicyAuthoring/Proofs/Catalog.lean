import PolicyAuthoring.Hydration
import PolicyAuthoring.Proofs.Value.Table
import Mathlib.Data.List.Nodup

/-!
# Finding attributes

Compiling finds an attribute by its identifier, reopening finds one by the name of a condition. In
a catalog whose identifiers are texts that differ from each other (`Catalog.Identified`), the first
search undoes nothing and loses nothing: `get?_eq_some_iff`. The second one may find another
attribute than the one whose name it was given, because names may recur and may be identifiers of
other attributes. It goes through all attributes once, those of the side first (`searchOrder`), so
what it finds instead stands earlier in that order: `rank_lt_of_resolve?`. Everything about names
that lead astray rests on this.
-/

namespace PolicyAuthoring

/-- Whether an attribute answers to a name: it has the name or is identified by it. -/
def Attribute.answersTo (a : Attribute) (name : Value) : Bool :=
  a.name.equals name || a.id.equals name

namespace Catalog

variable {c : Catalog} {category : Category} {a b : Attribute} {name key : Value}

/-- A catalog whose identifiers are texts, and in which each identifier belongs to one attribute. -/
structure Identified (c : Catalog) : Prop where
  /-- Identifiers are texts. -/
  id_text : ∀ a ∈ c.attributes, a.id.isText = true
  /-- No two attributes have the same identifier. -/
  id_nodup : (c.attributes.map Attribute.id).Nodup

/-- The catalog of attributes whose identifiers are texts that differ from each other. -/
theorem identified_ofList {attributes : List Attribute}
    (htext : ∀ a ∈ attributes, a.id.isText = true) (hnodup : (attributes.map Attribute.id).Nodup) :
    (ofList attributes).Identified :=
  ⟨htext, hnodup⟩

/-! ## Search by identifier -/

/-- The index of attributes with distinct identifiers has one entry for each of them. -/
theorem index_eq_map (attributes : List Attribute) (htext : ∀ a ∈ attributes, a.id.isText = true)
    (hnodup : (attributes.map Attribute.id).Nodup) :
    index attributes = attributes.map fun a => (a.id, a) := by
  induction attributes using List.reverseRecOn with
  | nil => rfl
  | append_singleton attributes last ih =>
    rw [List.map_append, List.nodup_append] at hnodup
    obtain ⟨hattributes, -, hlast⟩ := hnodup
    have ih := ih (fun a ha => htext a (List.mem_append_left _ ha)) hattributes
    -- The last identifier is new, so its entry is added at the end.
    have hnew : Table.contains (attributes.map fun a => (a.id, a)) last.id = false := by
      rw [Table.contains, List.any_eq_false]
      intro e he
      obtain ⟨a, ha, rfl⟩ := List.mem_map.mp he
      rw [Value.same_iff_of_isText (htext a (List.mem_append_left _ ha))]
      exact hlast a.id (List.mem_map_of_mem ha) last.id (by simp)
    rw [index] at ih ⊢
    rw [List.foldl_append, ih, List.foldl_cons, List.foldl_nil, Table.putNew, hnew,
      if_neg Bool.false_ne_true, Table.put_of_not_contains hnew, List.map_append]
    rfl

/-- The index leads a key to the first attribute that it identifies. -/
theorem lookup_index {attributes : List Attribute} (hkey : key.hashable = true)
    (hid : ∀ a ∈ attributes, a.id.same key = true → a.id.hashable = true) :
    (index attributes).lookup key = attributes.find? fun a => a.id.same key := by
  induction attributes using List.reverseRecOn with
  | nil => rfl
  | append_singleton attributes last ih =>
    have ih := ih fun a ha => hid a (List.mem_append_left _ ha)
    rw [index] at ih ⊢
    rw [List.foldl_append, List.foldl_cons, List.foldl_nil,
      Table.lookup_putNew hkey (hid last (by simp)), ih, List.find?_append, List.find?_singleton]

/-- The index leads a text to the first attribute that it identifies. -/
theorem lookup_index_of_isText (attributes : List Attribute) (hkey : key.isText = true) :
    (index attributes).lookup key = attributes.find? fun a => a.id.same key :=
  lookup_index (Value.hashable_of_isText hkey) fun a _ hsame => by
    rw [(Value.same_iff_of_isText_right hkey).mp hsame]
    exact Value.hashable_of_isText hkey

/-- An attribute is the first one of a catalog that has an identifier. -/
def IsFirst (c : Catalog) (id : Value) (a : Attribute) : Prop :=
  ∃ earlier later, c.attributes = earlier ++ a :: later ∧ a.id = id ∧ ∀ b ∈ earlier, b.id ≠ id

/-- The search for a text finds the first attribute that the text identifies. -/
theorem get?_eq_some_iff_isFirst (hkey : key.isText = true) :
    c.get? key = some a ↔ c.IsFirst key a := by
  rw [get?, c.indexed, lookup_index_of_isText c.attributes hkey, List.find?_eq_some_iff_append,
    IsFirst]
  have hsame (b : Attribute) : b.id.same key = true ↔ b.id = key :=
    Value.same_iff_of_isText_right hkey
  simp only [hsame, Bool.not_eq_true', ← Bool.not_eq_true, ne_eq]
  constructor
  · rintro ⟨hid, earlier, later, hsplit, hearlier⟩
    exact ⟨earlier, later, hsplit, hid, hearlier⟩
  · rintro ⟨earlier, later, hsplit, hid, hearlier⟩
    exact ⟨hid, earlier, later, hsplit, hearlier⟩

/-- The search for a text finds nothing exactly if the text identifies no attribute. -/
theorem get?_eq_none_iff (hkey : key.isText = true) :
    c.get? key = none ↔ ∀ a ∈ c.attributes, a.id ≠ key := by
  rw [get?, c.indexed, lookup_index_of_isText c.attributes hkey, List.find?_eq_none]
  simp only [Value.same_iff_of_isText_right hkey, ne_eq]

namespace Identified

variable (hc : c.Identified)

include hc

/-- Attributes with the same identifier are the same. -/
theorem eq_of_id_eq (ha : a ∈ c.attributes) (hb : b ∈ c.attributes) (hid : a.id = b.id) : a = b :=
  List.inj_on_of_nodup_map hc.id_nodup ha hb hid

/-- The search by identifier finds the attribute with the identifier, if there is one. -/
theorem get?_eq_some_iff : c.get? key = some a ↔ a ∈ c.attributes ∧ a.id = key := by
  rw [get?, c.indexed, index_eq_map c.attributes hc.id_text hc.id_nodup]
  have htext : ∀ e ∈ c.attributes.map fun a => (a.id, a), e.1.isText = true := by
    intro e he
    obtain ⟨a, ha, rfl⟩ := List.mem_map.mp he
    exact hc.id_text a ha
  constructor
  · intro h
    rw [Table.lookup] at h
    obtain ⟨e, he, rfl⟩ := Option.map_eq_some_iff.mp h
    obtain ⟨a, ha, rfl⟩ := List.mem_map.mp (List.mem_of_find?_eq_some he)
    have hsame := List.find?_some he
    exact ⟨ha, (Value.same_iff_of_isText (hc.id_text a ha)).mp hsame⟩
  · rintro ⟨ha, rfl⟩
    have hdistinct : Table.Distinct (c.attributes.map fun a => (a.id, a)) := by
      refine Table.distinct_of_nodup htext ?_
      rw [List.map_map]
      exact hc.id_nodup
    exact Table.lookup_of_mem hdistinct (List.mem_map_of_mem ha)

/-- The search by identifier finds every attribute under its own identifier. -/
theorem get?_id (ha : a ∈ c.attributes) : c.get? a.id = some a :=
  hc.get?_eq_some_iff.mpr ⟨ha, rfl⟩

end Identified

/-! ## Search by name -/

/-- The attributes in the order in which the name of a condition is searched for: those with the
category first, then the others. -/
def searchOrder (c : Catalog) (category : Category) : List Attribute :=
  (c.attributes.filter fun a => a.hasCategory (.text category.name)) ++
    c.attributes.filter fun a => !a.hasCategory (.text category.name)

/-- Every attribute is searched once. -/
theorem searchOrder_perm (c : Catalog) (category : Category) :
    (c.searchOrder category).Perm c.attributes :=
  List.filter_append_perm _ _

theorem mem_searchOrder : a ∈ c.searchOrder category ↔ a ∈ c.attributes :=
  (c.searchOrder_perm category).mem_iff

/-- Going on to all elements of a list after some of them finds what going on to the others
finds. -/
private theorem find?_filter_or {α : Type} (p q : α → Bool) (l : List α) :
    ((l.filter p).find? q).or (l.find? q) =
      (l.filter p ++ l.filter fun x => !p x).find? q := by
  rw [List.find?_append]
  cases hfirst : (l.filter p).find? q with
  | some x => rfl
  | none =>
    rw [Option.none_or, Option.none_or]
    rw [List.find?_filter]
    rw [List.find?_filter, List.find?_eq_none] at hfirst
    -- Nothing with `p` is looked for, so it makes no difference that it is searched again.
    induction l with
    | nil => rfl
    | cons x l ih =>
      have hx := hfirst x (List.mem_cons_self ..)
      have ih := ih fun y hy => hfirst y (List.mem_cons_of_mem _ hy)
      rw [List.find?_cons, List.find?_cons, ih]
      cases hq : q x with
      | false => simp
      | true =>
        have hp : p x = false := by simpa [hq] using hx
        simp [hp]

/-- The name of a condition finds the first attribute in search order that answers to it. -/
theorem resolve?_eq_find? :
    c.resolve? category name = (c.searchOrder category).find? fun a => a.answersTo name :=
  find?_filter_or _ _ _

/-- A search by name finds an attribute of the catalog that answers to the name. -/
theorem mem_of_resolve? (h : c.resolve? category name = some b) :
    b ∈ c.attributes ∧ b.answersTo name = true := by
  rw [resolve?_eq_find?] at h
  have hanswers := List.find?_some h
  exact ⟨mem_searchOrder.mp (List.mem_of_find?_eq_some h), hanswers⟩

/-- A search that finds nothing has been given no name that an attribute answers to. -/
theorem resolve?_eq_none_iff :
    c.resolve? category name = none ↔ ∀ a ∈ c.attributes, a.answersTo name = false := by
  rw [resolve?_eq_find?, List.find?_eq_none]
  simp [mem_searchOrder]

/-- An attribute whose name some attribute answers to answers to its own name. -/
theorem answersTo_self_of_resolve? (h : c.resolve? category a.name = some b) :
    a.answersTo a.name = true := by
  have hb := (mem_of_resolve? h).2
  rw [Attribute.answersTo, Bool.or_eq_true] at hb ⊢
  exact Or.inl (hb.elim Value.equals_self_of_equals Value.equals_self_of_equals)

/-! ## Rank -/

/-- The place of an attribute in the search order. -/
def rank (c : Catalog) (category : Category) (a : Attribute) : Nat :=
  (c.searchOrder category).findIdx fun b => b.id.same a.id

/-- Ranks are below the number of attributes. -/
theorem rank_lt_size (ha : a ∈ c.attributes) : c.rank category a < c.size := by
  rw [size, ← (c.searchOrder_perm category).length_eq]
  exact List.findIdx_lt_length_of_exists ⟨a, mem_searchOrder.mpr ha, Value.same_self a.id⟩

/-- What a search for the name of an attribute finds in place of the attribute stands earlier in
the search order. -/
theorem Identified.rank_lt_of_resolve? (hc : c.Identified) (ha : a ∈ c.attributes)
    (h : c.resolve? category a.name = some b) (hne : b ≠ a) :
    c.rank category b < c.rank category a := by
  have hself := answersTo_self_of_resolve? h
  rw [resolve?_eq_find?, List.find?_eq_some_iff_getElem] at h
  obtain ⟨-, i, hi, hbi, hbefore⟩ := h
  have hmem {j : Nat} (hj : j < (c.searchOrder category).length) :
      (c.searchOrder category)[j] ∈ c.attributes :=
    mem_searchOrder.mp (List.getElem_mem hj)
  -- What is found stands at place `i`, and nowhere before it.
  have hle : c.rank category b ≤ i := by
    by_contra hlt
    have := List.not_of_lt_findIdx (Nat.not_le.mp hlt)
    rw [hbi, Value.same_self] at this
    cases this
  -- Nothing up to place `i` is `a`: before it nothing answers to the name, and at it stands `b`.
  have hlt : i < c.rank category a := by
    refine List.lt_findIdx_of_not hi fun j hj => ?_
    rw [Bool.not_eq_true, ← Bool.not_eq_true]
    intro hsame
    have hj' : j < (c.searchOrder category).length := Nat.lt_of_le_of_lt hj hi
    have heq : (c.searchOrder category)[j] = a :=
      hc.eq_of_id_eq (hmem hj') ha ((Value.same_iff_of_isText (hc.id_text _ (hmem hj'))).mp hsame)
    rcases Nat.lt_or_eq_of_le hj with hlt | rfl
    · have := hbefore j hlt
      rw [heq, hself] at this
      cases this
    · exact hne (hbi.symm.trans heq)
  exact Nat.lt_of_le_of_lt hle hlt

/-- If each of some attributes is found by the name of one of them, then each is found by its own
name: a name that finds another attribute would leave the last attribute with such a name to be
found by none. -/
theorem Identified.resolve?_eq_self_of_forall_found (hc : c.Identified)
    {attributes : List Attribute} (hmem : ∀ a ∈ attributes, a ∈ c.attributes)
    (hfound : ∀ a ∈ attributes, ∃ b ∈ attributes, c.resolve? category b.name = some a) :
    ∀ a ∈ attributes, c.resolve? category a.name = some a := by
  intro a ha
  -- Induction from the end of the search order: what is found from further back is found rightly.
  induction hlater : c.size - c.rank category a using Nat.strongRecOn generalizing a with
  | ind later ih =>
    obtain ⟨b, hb, hba⟩ := hfound a ha
    by_cases hne : a = b
    · rw [hne] at hba ⊢
      exact hba
    · have hrank := hc.rank_lt_of_resolve? (hmem b hb) hba hne
      have hlt : c.rank category b < c.size := rank_lt_size (hmem b hb)
      have hself := ih (c.size - c.rank category b) (by omega) b hb rfl
      rw [hba, Option.some.injEq] at hself
      exact absurd hself hne

end Catalog

end PolicyAuthoring
