import PolicyAuthoring.Proofs.Value.Guarded
import PolicyAuthoring.Proofs.Value.Strip

/-!
# Fields and items of any value

What a reader finds in a value of which nothing is known: the entry under a name is null where there
is none, and a value that is not made of items has none. The demands that readers make of a field
are that it is there (`Value.Has`), that it is a mapping (`Value.MappingIfPresent`), that it is made
of items (`Value.Listable`), or that it is a list of values with a property (`Value.IsListOf`).

In a proper value the keys of mappings and the members of sets can be keys, everywhere inside it
(`Value.Proper`). So a reader that goes through the items of a field and demands mappings demands a
list (`Value.Proper.isListOf_iff`).
-/

namespace PolicyAuthoring

namespace Value

variable {v : Value}

/-- The entry of a value under a name; null if it has none. -/
def entry (v : Value) (name : String) : Value :=
  match v with
  | .mapping entries => (Table.lookup entries (.text name)).getD .null
  | _ => .null

/-- The items of a value; none if it is not made of items. -/
def members (v : Value) : List Value := v.items?.getD []

/-- A value that counts as missing or is made of items. -/
def Listable (v : Value) : Prop := v.truthy = true → v.items?.isSome = true

/-- A field of a mapping is its entry. -/
theorem field_mapping (entries : Table Value) (name : String) :
    (mapping entries).field name = .ok ((mapping entries).entry name) := rfl

/-- An entry that counts as present is one that is there. -/
theorem hasPresent_eq (v : Value) (name : String) : v.hasPresent name = (v.entry name).truthy := by
  cases v with
  | mapping entries =>
    rw [hasPresent, entry]
    cases Table.lookup entries (.text name) <;> rfl
  | _ => rfl

/-- Only a mapping has entries that count as present. -/
theorem exists_mapping_of_truthy_entry {name : String} (h : (v.entry name).truthy = true) :
    ∃ entries, v = .mapping entries := by
  cases v with
  | mapping entries => exact ⟨entries, rfl⟩
  | _ => cases h

/-- What counts as missing has no items. -/
theorem members_of_not_truthy (h : v.truthy = false) : v.members = [] := by
  cases v <;> simp_all [members, items?, truthy, Table.keys]

/-- The items of a text are texts. -/
theorem isText_of_mem_members {x : Value} (hv : v.isText = true) (hx : x ∈ v.members) :
    x.isText = true := by
  rcases isText_iff.mp hv with ⟨s, rfl⟩ | ⟨codes, rfl⟩
  · obtain ⟨c, -, rfl⟩ := List.mem_map.mp hx
    rfl
  · obtain ⟨code, -, rfl⟩ := List.mem_map.mp hx
    exact isText_ofCodes _

/-- The items of a value that can be listed. -/
theorem itemsIfPresent_eq (h : v.Listable) : v.itemsIfPresent = .ok v.members := by
  rw [itemsIfPresent]
  cases htruthy : v.truthy with
  | false => rw [if_neg Bool.false_ne_true, members_of_not_truthy htruthy]
  | true =>
    obtain ⟨vs, hvs⟩ := Option.isSome_iff_exists.mp (h htruthy)
    rw [if_pos rfl, items, members, hvs]
    rfl

/-- The items of a value can be taken exactly if the value can be listed. -/
theorem guarded_itemsIfPresent_notIterable (v : Value) :
    Guarded v.itemsIfPresent v.Listable (· = .notIterable v.kind) := by
  refine ⟨fun h => ⟨_, itemsIfPresent_eq h⟩, fun h => ?_⟩
  obtain ⟨htruthy, hnone⟩ := Classical.not_imp.mp h
  have hitems : v.items? = none := by simpa using hnone
  exact ⟨_, by rw [itemsIfPresent, if_pos htruthy, items, hitems], rfl⟩

/-- What keeps the items of a value from being taken comes from its kind. -/
theorem guarded_itemsIfPresent (v : Value) :
    Guarded v.itemsIfPresent v.Listable ShapeFault.IsKindFault :=
  v.guarded_itemsIfPresent_notIterable.imp fun _ h => h ▸ rfl

/-! ## Mappings -/

/-- A mapping with an entry under a name. -/
def Has (v : Value) (name : String) : Prop := ∃ w, v.field? name = .ok (some w)

/-- A value that counts as missing or is a mapping. -/
def MappingIfPresent (v : Value) : Prop := v.truthy = true → v.kind = .mapping

/-- A field of a mapping, or what stands in for it. -/
theorem fieldD_mapping (entries : Table Value) (name : String) (fallback : Value) :
    (mapping entries).fieldD name fallback =
      .ok ((Table.lookup entries (.text name)).getD fallback) := rfl

/-- Only a mapping has fields. -/
theorem guarded_fieldD (v : Value) (name : String) (fallback : Value) :
    Guarded (v.fieldD name fallback) (v.kind = .mapping) (· = .noOperation v.kind "get") := by
  cases v with
  | mapping entries => exact (Guarded.ok _).congr (iff_of_true trivial rfl)
  | _ => exact ⟨nofun, fun _ => ⟨_, rfl, rfl⟩⟩

/-- A field of a value that is a mapping is its entry. -/
theorem field_of_kind {name : String} (h : v.kind = .mapping) :
    v.field name = .ok (v.entry name) := by
  cases v <;> cases h
  rfl

/-- An entry that must be there is read exactly from a mapping with the entry. -/
theorem guarded_requiredField (v : Value) (name : String) :
    Guarded (v.requiredField name) (v.Has name) fun fault =>
      fault ∈ [.missingEntry name, .notSubscriptable v.kind, .nameIsNoPosition v.kind] := by
  cases v with
  | mapping entries =>
    rw [requiredField, Has, field?_mapping]
    cases Table.lookup entries (.text name) with
    | some w => exact (Guarded.ok w).congr (iff_of_true trivial ⟨w, rfl⟩)
    | none =>
      refine ⟨?_, fun _ => ⟨_, rfl, by simp⟩⟩
      rintro ⟨w, hw⟩
      cases hw
  | _ =>
    refine ⟨?_, fun _ => ⟨_, rfl, by simp⟩⟩
    rintro ⟨w, hw⟩
    cases hw

/-- Only a mapping has an entry. -/
theorem Has.kind {name : String} (h : v.Has name) : v.kind = .mapping := by
  obtain ⟨w, hw⟩ := h
  cases v <;> first | rfl | cases hw

/-- What is demanded of a field with a fallback that meets the demand is demanded of the field where
it is given. -/
theorem forall_field?_iff {P : Value → Prop} {entries : Table Value} {name : String}
    {fallback : Value} (hfallback : P fallback) :
    P ((Table.lookup entries (.text name)).getD fallback) ↔
      ∀ w, (mapping entries).field? name = .ok (some w) → P w := by
  rw [field?_mapping]
  cases Table.lookup entries (.text name) with
  | none => exact iff_of_true hfallback nofun
  | some w =>
    simp only [Option.getD_some, Except.ok.injEq, Option.some.injEq]
    exact ⟨fun h _ heq => heq ▸ h, fun h => h w rfl⟩

/-- The empty mapping stands in for a missing one, so what is there has to be a mapping. -/
theorem kind_orElse_mapping_iff :
    (v.orElse (.mapping [])).kind = .mapping ↔ v.MappingIfPresent := by
  rw [orElse, MappingIfPresent]
  cases v.truthy <;> simp [kind]

/-- The empty mapping that stands in for a missing one has no entries either. -/
theorem entry_orElse_mapping (name : String) :
    (v.orElse (.mapping [])).entry name = v.entry name := by
  rw [orElse]
  cases htruthy : v.truthy with
  | true => rw [if_pos rfl]
  | false =>
    rw [if_neg Bool.false_ne_true]
    cases v with
    | mapping entries =>
      cases entries with
      | nil => rfl
      | cons e entries => cases htruthy
    | _ => rfl

/-! ## Proper values -/

/-- A value in which every key of a mapping and every member of a set can be one. Whatever program
builds a value, it builds a proper one, because mappings and sets refuse anything else. -/
inductive Proper : Value → Prop
  /-- A value without items. -/
  | single {v : Value} (hitems : v.items? = none) : Proper v
  /-- A text, whose items are texts. -/
  | text {v : Value} (htext : v.isText = true) : Proper v
  /-- A list of proper values. -/
  | list {items : List Value} (hitems : ∀ v ∈ items, Proper v) : Proper (.list items)
  /-- A tuple of proper values. -/
  | tuple {items : List Value} (hitems : ∀ v ∈ items, Proper v) : Proper (.tuple items)
  /-- A mapping of keys to proper values. -/
  | mapping {entries : Table Value} (hhashable : ∀ e ∈ entries, e.1.hashable = true)
      (hkeys : ∀ e ∈ entries, Proper e.1) (hvalues : ∀ e ∈ entries, Proper e.2) :
      Proper (.mapping entries)
  /-- A set of what can be keys. -/
  | set {members : List Value} (hhashable : ∀ v ∈ members, v.hashable = true)
      (hmembers : ∀ v ∈ members, Proper v) : Proper (.set members)

namespace Proper

variable {x : Value}

/-- The entries of a proper value are proper. -/
theorem entry (hv : v.Proper) (name : String) : (v.entry name).Proper := by
  cases v with
  | mapping entries =>
    rw [Value.entry]
    cases hlookup : Table.lookup entries (.text name) with
    | none => exact .single rfl
    | some w =>
      obtain ⟨e, he, rfl⟩ := Option.map_eq_some_iff.mp hlookup
      cases hv with
      | single hitems => cases hitems
      | text htext => cases htext
      | mapping _ _ hvalues => exact hvalues e (List.mem_of_find?_eq_some he)
  | _ => exact .single rfl

/-- The items of a proper value are proper. -/
theorem of_mem_members (hv : v.Proper) (hx : x ∈ v.members) : x.Proper := by
  cases hv with
  | single hitems =>
    rw [members, hitems] at hx
    cases hx
  | text htext => exact .text (isText_of_mem_members htext hx)
  | list hitems => exact hitems x hx
  | tuple hitems => exact hitems x hx
  | mapping _ hkeys _ =>
    obtain ⟨e, he, rfl⟩ := List.mem_map.mp hx
    exact hkeys e he
  | set _ hmembers => exact hmembers x hx

/-- What a proper value is made of can be a key, unless the value is a list or a tuple. -/
theorem hashable_of_mem_members (hv : v.Proper) (hsequence : v.isSequence = false)
    (hx : x ∈ v.members) : x.hashable = true := by
  cases hv with
  | single hitems =>
    rw [members, hitems] at hx
    cases hx
  | text htext => exact hashable_of_isText (isText_of_mem_members htext hx)
  | list => cases hsequence
  | tuple => cases hsequence
  | mapping hhashable _ _ =>
    obtain ⟨e, he, rfl⟩ := List.mem_map.mp hx
    exact hhashable e he
  | set hhashable _ => exact hhashable x hx

end Proper

/-- A value that counts as missing or is a list of values with a property. A tuple is as good as a
list. -/
def IsListOf (P : Value → Prop) (v : Value) : Prop :=
  v.truthy = true → v.isSequence = true ∧ ∀ x ∈ v.members, P x

/-- A value that counts as present and can be listed has items. -/
theorem members_ne_nil (htruthy : v.truthy = true) (hv : v.Listable) : v.members ≠ [] := by
  have hitems := hv htruthy
  cases v <;> simp_all [members, items?, truthy, Table.keys]

/-- The items of a proper value can only be mappings if it is a list. -/
theorem Proper.isListOf_iff {P : Value → Prop} (hv : v.Proper) (hP : ∀ x, P x → x.kind = .mapping) :
    v.Listable ∧ (∀ x ∈ v.members, P x) ↔ v.IsListOf P := by
  constructor
  · rintro ⟨hlistable, hmembers⟩ htruthy
    refine ⟨?_, hmembers⟩
    by_contra hsequence
    obtain ⟨x, hx⟩ := List.exists_mem_of_ne_nil _ (members_ne_nil htruthy hlistable)
    -- The first item would be a mapping and could be a key.
    have hhashable := hv.hashable_of_mem_members (Bool.eq_false_iff.mpr hsequence) hx
    have hmapping := hP x (hmembers x hx)
    cases x <;> cases hmapping
    cases hhashable
  · intro h
    refine ⟨fun htruthy => ?_, fun x hx => ?_⟩
    · have hsequence := (h htruthy).1
      cases v <;> first | rfl | cases hsequence
    · cases htruthy : v.truthy with
      | true => exact (h htruthy).2 x hx
      | false =>
        rw [members_of_not_truthy htruthy] at hx
        cases hx

end Value

end PolicyAuthoring
