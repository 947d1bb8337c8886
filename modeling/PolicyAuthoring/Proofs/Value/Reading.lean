import PolicyAuthoring.Value.Reading
import PolicyAuthoring.Proofs.Value.Equality

/-!
# Steps of reading

How steps that may fail follow each other, and what reading a mapping field by field finds in a
mapping that is written out entry by entry.
-/

namespace PolicyAuthoring

/-! ## Steps -/

section Steps

variable {ε α β : Type}

/-- A step after one that succeeds. -/
theorem ok_bind (a : α) (f : α → Except ε β) : (Except.ok a >>= f) = f a := rfl

/-- Two steps succeed when the second succeeds on what the first gives. -/
theorem exists_of_bind_eq_ok {x : Except ε α} {f : α → Except ε β} {b : β}
    (h : x >>= f = .ok b) : ∃ a, x = .ok a ∧ f a = .ok b := by
  cases x with
  | error e => cases h
  | ok a => exact ⟨a, rfl, h⟩

/-- A step with a result that can be found out succeeds with it. -/
theorem eq_ok_of_toOption_eq_some {x : Except ε α} {a : α} (h : x.toOption = some a) :
    x = .ok a := by
  cases x with
  | error e => cases h
  | ok b => exact congrArg Except.ok (Option.some.inj h)

/-- A step on values succeeds as a step on policies exactly when it succeeds. -/
theorem liftM_eq_ok_iff {x : Except ShapeFault α} {a : α} :
    (liftM x : Except Fault α) = .ok a ↔ x = .ok a := by
  cases x with
  | error fault =>
    constructor <;> intro h <;> cases h
  | ok b =>
    constructor <;> intro h <;> cases h <;> rfl

/-- A step on values has the fault of a value as a step on policies. -/
theorem exists_of_liftM_eq_error {x : Except ShapeFault α} {fault : Fault}
    (h : (liftM x : Except Fault α) = .error fault) : ∃ cause, fault = .shape cause := by
  cases x with
  | error cause =>
    obtain rfl := Except.error.inj h
    exact ⟨cause, rfl⟩
  | ok a => cases h

/-- A reader that succeeds on every element of a list reads the list. -/
theorem mapM_eq_ok {f : α → Except ε β} {g : α → β} {l : List α}
    (h : ∀ a ∈ l, f a = .ok (g a)) : l.mapM f = .ok (l.map g) := by
  induction l with
  | nil => rfl
  | cons a l ih =>
    rw [List.mapM_cons, h a (List.mem_cons_self ..), ih fun b hb => h b (List.mem_cons_of_mem _ hb)]
    rfl

/-- A filter whose test succeeds on every element of a list keeps the elements that pass it. -/
theorem filterM_eq_ok {f : α → Except ε Bool} {test : α → Bool} {l : List α}
    (h : ∀ a ∈ l, f a = .ok (test a)) : l.filterM f = .ok (l.filter test) := by
  -- What has been kept so far is generalized; it is collected in reverse.
  suffices hkept : ∀ kept : List α, l.filterAuxM f kept = .ok ((l.filter test).reverse ++ kept) by
    rw [List.filterM, hkept, List.append_nil]
    exact congrArg Except.ok (List.reverse_reverse _)
  induction l with
  | nil => exact fun kept => rfl
  | cons a l ih =>
    intro kept
    rw [List.filterAuxM, h a (List.mem_cons_self ..), ok_bind,
      ih fun b hb => h b (List.mem_cons_of_mem _ hb), List.filter_cons]
    cases test a with
    | false => rfl
    | true =>
      rw [if_pos rfl, List.reverse_cons, List.append_assoc]
      rfl

/-- A reader that reads a list succeeds on every element of the list. -/
theorem exists_of_mapM_eq_ok {f : α → Except ε β} {l : List α} {bs : List β}
    (h : l.mapM f = .ok bs) : ∀ a ∈ l, ∃ b, f a = .ok b := by
  induction l generalizing bs with
  | nil => simp
  | cons a l ih =>
    rw [List.mapM_cons] at h
    obtain ⟨b, hb, hrest⟩ := exists_of_bind_eq_ok h
    obtain ⟨bs, hbs, -⟩ := exists_of_bind_eq_ok hrest
    intro x hx
    rcases List.mem_cons.mp hx with rfl | hx
    · exact ⟨b, hb⟩
    · exact ih hbs x hx

/-- What a reader makes of a list it makes of the elements of the list. -/
theorem exists_of_mem_of_mapM_eq_ok {f : α → Except ε β} {l : List α} {bs : List β}
    (h : l.mapM f = .ok bs) : ∀ b ∈ bs, ∃ a ∈ l, f a = .ok b := by
  induction l generalizing bs with
  | nil =>
    cases h
    simp
  | cons a l ih =>
    rw [List.mapM_cons] at h
    obtain ⟨first, hfirst, hrest⟩ := exists_of_bind_eq_ok h
    obtain ⟨others, hothers, h⟩ := exists_of_bind_eq_ok hrest
    cases h
    intro b hb
    rcases List.mem_cons.mp hb with rfl | hb
    · exact ⟨a, List.mem_cons_self .., hfirst⟩
    · obtain ⟨a', ha', hab⟩ := ih hothers b hb
      exact ⟨a', List.mem_cons_of_mem _ ha', hab⟩

/-- What can be told of each result from its element can be told of all results in order. -/
theorem map_of_mapM_eq_ok {γ : Type} {f : α → Except ε β} {g : β → γ} {k : α → γ} {l : List α}
    {bs : List β} (h : l.mapM f = .ok bs) (hg : ∀ a ∈ l, ∀ b, f a = .ok b → g b = k a) :
    bs.map g = l.map k := by
  induction l generalizing bs with
  | nil =>
    cases h
    rfl
  | cons a l ih =>
    rw [List.mapM_cons] at h
    obtain ⟨first, hfirst, hrest⟩ := exists_of_bind_eq_ok h
    obtain ⟨others, hothers, h⟩ := exists_of_bind_eq_ok hrest
    cases h
    rw [List.map_cons, List.map_cons, hg a (List.mem_cons_self ..) first hfirst,
      ih hothers fun b hb => hg b (List.mem_cons_of_mem _ hb)]

/-- A reader has as many results as a list has elements. -/
theorem length_of_mapM_eq_ok {f : α → Except ε β} {l : List α} {bs : List β}
    (h : l.mapM f = .ok bs) : bs.length = l.length := by
  have hunits := map_of_mapM_eq_ok (g := fun _ => ()) (k := fun _ => ()) h fun _ _ _ _ => rfl
  simpa using congrArg List.length hunits

end Steps

/-! ## Fields -/

namespace Value

variable {name other : String} {v fallback : Value} {rest : Table Value}

/-- The first entry of a mapping is found under its name. -/
theorem fieldD_cons_self : (mapping ((.text name, v) :: rest)).fieldD name fallback = .ok v := by
  rw [fieldD, field?_mapping, Table.lookup_cons, if_pos (same_self _)]
  rfl

/-- The first entry of a mapping hides none of another name. -/
theorem fieldD_cons_of_ne (h : other ≠ name) :
    (mapping ((.text other, v) :: rest)).fieldD name fallback =
      (mapping rest).fieldD name fallback := by
  have hkey : ¬ (Value.text other).same (.text name) = true := by
    rw [same_iff_of_isText rfl, Value.text.injEq]
    exact h
  rw [fieldD, fieldD, field?_mapping, field?_mapping, Table.lookup_cons, if_neg hkey]

/-- A required entry that comes first is found under its name. -/
theorem requiredField_cons_self :
    (mapping ((.text name, v) :: rest)).requiredField name = .ok v := by
  rw [requiredField, Table.lookup_cons, if_pos (same_self _)]

end Value

end PolicyAuthoring
