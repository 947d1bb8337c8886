import PolicyAuthoring.Value.Reading

/-!
# Equality of values

`Value.same` is the equality of table keys: it takes integers, floats and truth values for the
numbers they stand for, and the datum that is not a number for equal to itself. `Value.equals` is
the equality of a search, to which that datum equals nothing. This file shows

- `same_self`: every value is the same as itself;
- `equals_self_of_equals`: what a search finds to equal a value is found by a search for itself;
- `same_iff_of_isText`, `equals_iff_of_isText`: to a text, both are equality of texts.

A text may hold surrogate code points; `Value.isText` covers both ways of holding a text.
-/

namespace PolicyAuthoring.Value

/-! ## Reflexivity -/

mutual

/-- Every value is the same as itself. -/
theorem same_self : ∀ v : Value, same v v = true
  | .null => by simp [same, kind]
  | .bool b => by simp [same, asInt?]
  | .int n => by simp [same, asInt?]
  | .float x => by simp [same]
  | .text s => by simp [same]
  | .unpaired codes => by simp [same]
  | .list items => by rw [same]; exact sameItems_self items
  | .tuple items => by rw [same]; exact sameItems_self items
  | .mapping entries => by
    rw [same, entriesAmong_of_subset entries entries fun _ he => he]
    simp
  | .set members => by
    rw [same, membersAmong_of_subset members members fun _ hv => hv]
    simp
  | .date d => by simp [same]
  | .datetime t => by
    rw [same, DateTime.same]
    cases t.offset <;> simp
termination_by structural v => v

theorem sameItems_self : ∀ vs : List Value, sameItems vs vs = true
  | [] => by rw [sameItems]
  | v :: vs => by rw [sameItems, same_self v, sameItems_self vs]; rfl
termination_by structural vs => vs

theorem entriesAmong_of_subset : ∀ es others : List (Value × Value), (∀ e ∈ es, e ∈ others) →
    entriesAmong es others = true
  | [], others, _ => by rw [entriesAmong]
  | e :: es, others, h => by
    have he : others.any (fun o => sameEntry e o) = true :=
      List.any_eq_true.mpr ⟨e, h e (List.mem_cons_self ..), sameEntry_self e⟩
    rw [entriesAmong, he, Bool.true_and]
    exact entriesAmong_of_subset es others fun f hf => h f (List.mem_cons_of_mem _ hf)
termination_by structural es => es

theorem sameEntry_self : ∀ e : Value × Value, sameEntry e e = true
  | (k, v) => by rw [sameEntry, same_self k, same_self v]; rfl
termination_by structural e => e

theorem membersAmong_of_subset : ∀ vs others : List Value, (∀ v ∈ vs, v ∈ others) →
    membersAmong vs others = true
  | [], others, _ => by rw [membersAmong]
  | v :: vs, others, h => by
    have hv : others.any (fun o => same v o) = true :=
      List.any_eq_true.mpr ⟨v, h v (List.mem_cons_self ..), same_self v⟩
    rw [membersAmong, hv, Bool.true_and]
    exact membersAmong_of_subset vs others fun w hw => h w (List.mem_cons_of_mem _ hw)
termination_by structural vs => vs

end

variable {v w : Value}

/-- Only the datum that is not a number is the same as it. -/
theorem isNaN_of_same (h : v.same w = true) (hw : w.isNaN = true) : v.isNaN = true := by
  cases w with
  | float x =>
    cases x with
    | nan =>
      cases v with
      | float y => cases y <;> simp_all [same, isNaN, Binary64.same]
      | _ => simp_all [same, kind, asInt?, Binary64.toInt?, Binary64.units?]
    | number negative rank => cases hw
  | _ => cases hw

/-- A value that equals anything in a search equals itself there. -/
theorem equals_self_of_equals (h : v.equals w = true) : w.equals w = true := by
  rw [equals, Bool.and_eq_true, Bool.not_eq_true'] at h ⊢
  refine ⟨?_, same_self w⟩
  cases hnan : w.isNaN with
  | false => rfl
  | true =>
    rw [isNaN_of_same h.2 hnan] at h
    exact h.1

/-! ## Texts -/

/-- A text is a text without surrogates or one with them. -/
theorem isText_iff : v.isText = true ↔ (∃ s, v = .text s) ∨ ∃ codes, v = .unpaired codes := by
  cases v <;> simp [isText, kind]

/-- A text is the same value as itself and no other. -/
theorem same_iff_of_isText (hv : v.isText = true) : v.same w = true ↔ v = w := by
  rcases isText_iff.mp hv with ⟨s, rfl⟩ | ⟨codes, rfl⟩ <;> cases w <;> simp [same]

/-- Nothing but a text itself is the same value as the text. -/
theorem same_iff_of_isText_right (hw : w.isText = true) : v.same w = true ↔ v = w := by
  rcases isText_iff.mp hw with ⟨s, rfl⟩ | ⟨codes, rfl⟩ <;> cases v <;>
    simp +contextual [same, kind, asInt?, Option.isSome_iff_ne_none]

/-- A text is not the datum that is not a number. -/
theorem isNaN_of_isText (hv : v.isText = true) : v.isNaN = false := by
  rcases isText_iff.mp hv with ⟨s, rfl⟩ | ⟨codes, rfl⟩ <;> rfl

/-- A search for a text finds the text and nothing else. -/
theorem equals_iff_of_isText (hv : v.isText = true) : v.equals w = true ↔ v = w := by
  rw [equals, isNaN_of_isText hv, Bool.not_false, Bool.true_and, same_iff_of_isText hv]

/-- What is found in a search for a text is the text. -/
theorem equals_iff_of_isText_right (hw : w.isText = true) : v.equals w = true ↔ v = w := by
  rw [equals, Bool.and_eq_true, same_iff_of_isText_right hw, and_iff_right_iff_imp]
  rintro rfl
  rw [isNaN_of_isText hw, Bool.not_false]

/-- A text with a text for a fallback is a text. -/
theorem isText_orElse (hv : v.isText = true) (hw : w.isText = true) :
    (v.orElse w).isText = true := by
  rcases v.orElse_eq w with h | h <;> rw [h] <;> assumption

/-- A value that can be a table key is one. -/
theorem asKey_of_hashable (hv : v.hashable = true) : v.asKey = .ok v := by
  rw [hashable, Option.isNone_iff_eq_none] at hv
  rw [asKey, hv]

/-- Only a value that can be a table key is one. -/
theorem hashable_of_asKey (h : v.asKey = .ok w) : v.hashable = true := by
  rw [hashable, Option.isNone_iff_eq_none]
  rw [asKey] at h
  split at h
  · assumption
  · cases h

/-- A text can be a table key. -/
theorem hashable_of_isText (hv : v.isText = true) : v.hashable = true := by
  rcases isText_iff.mp hv with ⟨s, rfl⟩ | ⟨codes, rfl⟩ <;> rfl

/-- The datum that is not a number can be a table key. -/
theorem hashable_of_isNaN (hv : v.isNaN = true) : v.hashable = true := by
  cases v <;> first | rfl | cases hv

end PolicyAuthoring.Value
