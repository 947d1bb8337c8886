import PolicyAuthoring.Proofs.Value.Equality
import PolicyAuthoring.Proofs.Value.Reading

/-!
# Steps under a condition

When a value of any shape is read, each step demands something of the value. `Guarded x p q` says
that the step `x` succeeds exactly if `p` holds and that its fault is one of `q` if it does not.
What a sequence of steps demands is what the steps demand together (`Guarded.bind`, `Guarded.mapM`),
so the exact demand of a long reader is read off its steps.
-/

namespace PolicyAuthoring

/-- A step that succeeds exactly under a condition, and has a fault of a given sort otherwise. -/
structure Guarded {ε α : Type} (x : Except ε α) (p : Prop) (q : ε → Prop) : Prop where
  /-- Under the condition the step has a result. -/
  succeeds : p → ∃ a, x = .ok a
  /-- Without the condition the step has a fault of that sort. -/
  fails : ¬ p → ∃ fault, x = .error fault ∧ q fault

namespace Guarded

variable {ε α β : Type} {x : Except ε α} {f : α → Except ε β} {p p' : Prop} {q : ε → Prop}

/-- A step with a result is under no condition. -/
theorem ok (a : α) : Guarded (.ok a : Except ε α) True q :=
  ⟨fun _ => ⟨a, rfl⟩, fun h => absurd trivial h⟩

/-- A guarded step succeeds exactly under its condition. -/
theorem exists_ok_iff (h : Guarded x p q) : (∃ a, x = .ok a) ↔ p := by
  refine ⟨fun ⟨a, ha⟩ => Classical.byContradiction fun hp => ?_, h.succeeds⟩
  obtain ⟨fault, hfault, -⟩ := h.fails hp
  rw [ha] at hfault
  cases hfault

/-- A guarded step has a result under its condition, or else a fault of its sort. -/
theorem ok_or_error (h : Guarded x p q) :
    (p ∧ ∃ a, x = .ok a) ∨ (¬ p ∧ ∃ fault, q fault ∧ x = .error fault) := by
  by_cases hp : p
  · exact Or.inl ⟨hp, h.succeeds hp⟩
  · obtain ⟨fault, hfault, hq⟩ := h.fails hp
    exact Or.inr ⟨hp, fault, hq, hfault⟩

/-- A fault of a guarded step is of its sort. -/
theorem fault (h : Guarded x p q) {fault : ε} (hfault : x = .error fault) : q fault := by
  rcases h.ok_or_error with ⟨-, a, ha⟩ | ⟨-, fault', hq, hfault'⟩
  · rw [ha] at hfault
    cases hfault
  · rw [hfault', Except.error.injEq] at hfault
    exact hfault ▸ hq

/-- Conditions that say the same guard the same steps. -/
theorem congr (h : Guarded x p q) (hp : p ↔ p') : Guarded x p' q :=
  ⟨fun h' => h.succeeds (hp.mpr h'), fun h' => h.fails (mt hp.mp h')⟩

/-- A fault of a sort is of every wider sort. -/
theorem imp {q' : ε → Prop} (h : Guarded x p q) (hq : ∀ fault, q fault → q' fault) :
    Guarded x p q' :=
  ⟨h.succeeds, fun hp => (h.fails hp).imp fun fault => And.imp_right (hq fault)⟩

/-- Two steps are under both conditions. -/
theorem bind (hx : Guarded x p q) (hf : ∀ a, x = .ok a → Guarded (f a) p' q) :
    Guarded (x >>= f) (p ∧ p') q := by
  by_cases hp : p
  · obtain ⟨a, ha⟩ := hx.succeeds hp
    have hfa := hf a ha
    rw [ha, ok_bind]
    exact ⟨fun h => hfa.succeeds h.2, fun h => hfa.fails fun hp' => h ⟨hp, hp'⟩⟩
  · -- The second step is never taken.
    obtain ⟨fault, hfault, hq⟩ := hx.fails hp
    rw [hfault]
    exact ⟨fun h => absurd h.1 hp, fun _ => ⟨fault, rfl, hq⟩⟩

/-- Two steps are under both conditions, where the result of the first one is known. -/
theorem bind_of_eq {a : α} (hx : Guarded x p q) (ha : p → x = .ok a)
    (hf : Guarded (f a) p' q) : Guarded (x >>= f) (p ∧ p') q := by
  refine hx.bind fun b hb => ?_
  rw [ha (hx.exists_ok_iff.mp ⟨b, hb⟩), Except.ok.injEq] at hb
  exact hb ▸ hf

/-- A step that cannot fail does not change the condition. -/
theorem bind_total (hx : Guarded x p q) (hf : ∀ a, ∃ b, f a = .ok b) : Guarded (x >>= f) p q := by
  refine (hx.bind fun a _ => ?_).congr (iff_of_eq (and_true p))
  obtain ⟨b, hb⟩ := hf a
  exact hb ▸ ok b

/-- A step that works on a result does not change the condition. -/
theorem bind_ok {g : α → β} (hx : Guarded x p q) :
    Guarded (x >>= fun a => .ok (g a)) p q :=
  hx.bind_total fun a => ⟨g a, rfl⟩

/-- A step after a check is under the condition that the check passes. -/
theorem afterCheck {b : Prop} [Decidable b] {fault : ε} {f : PUnit → Except ε α} (hfault : q fault)
    (hf : Guarded (f ⟨⟩) p q) :
    Guarded (if b then throw fault >>= f else f ⟨⟩) (¬ b ∧ p) q := by
  by_cases hb : b
  · rw [if_pos hb]
    exact ⟨fun h => absurd hb h.1, fun _ => ⟨fault, rfl, hfault⟩⟩
  · rw [if_neg hb]
    exact hf.congr (by simp [hb])

/-- What is made of a result does not change the condition. -/
theorem map {g : α → β} (hx : Guarded x p q) : Guarded (x.map g) p q :=
  hx.bind_ok

/-- A reader reads a list if it reads all its elements. -/
theorem mapM {l : List α} {condition : α → Prop} (h : ∀ a ∈ l, Guarded (f a) (condition a) q) :
    Guarded (l.mapM f) (∀ a ∈ l, condition a) q := by
  induction l with
  | nil => exact (ok []).congr (by simp)
  | cons a l ih =>
    rw [List.mapM_cons]
    have hrest := ih fun b hb => h b (List.mem_cons_of_mem _ hb)
    refine ((h a (List.mem_cons_self ..)).bind fun b _ => hrest.bind_ok).congr ?_
    rw [List.forall_mem_cons]

/-- Steps are taken for all elements of a list if each of them can be. -/
theorem forM {l : List α} {f : α → Except ε PUnit} {condition : α → Prop}
    (h : ∀ a ∈ l, Guarded (f a) (condition a) q) : Guarded (l.forM f) (∀ a ∈ l, condition a) q := by
  induction l with
  | nil => exact (ok PUnit.unit).congr (by simp)
  | cons a l ih =>
    have hrest := ih fun b hb => h b (List.mem_cons_of_mem _ hb)
    refine ((h a (List.mem_cons_self ..)).bind fun _ _ => hrest).congr ?_
    rw [List.forall_mem_cons]

/-- Steps that each work on the result of the one before are taken for all elements of a list if
each of them can be, whatever it works on. -/
theorem foldlM {f : β → α → Except ε β} {condition : α → Prop}
    (h : ∀ b a, Guarded (f b a) (condition a) q) (b : β) (l : List α) :
    Guarded (l.foldlM f b) (∀ a ∈ l, condition a) q := by
  induction l generalizing b with
  | nil => exact (ok b).congr (by simp)
  | cons a l ih =>
    rw [List.foldlM_cons]
    refine ((h b a).bind fun c _ => ih c).congr ?_
    rw [List.forall_mem_cons]

/-- A step on values is a step on policies under the same condition. -/
theorem lift {x : Except ShapeFault α} {q : ShapeFault → Prop} (h : Guarded x p q) :
    Guarded (liftM x : Except Fault α) p fun fault => ∃ cause, fault = .shape cause := by
  refine ⟨fun hp => ?_, fun hp => ?_⟩
  · obtain ⟨a, ha⟩ := h.succeeds hp
    exact ⟨a, liftM_eq_ok_iff.mpr ha⟩
  · obtain ⟨cause, hcause, -⟩ := h.fails hp
    rw [hcause]
    exact ⟨.shape cause, rfl, cause, rfl⟩

end Guarded

/-- A fault that comes from the kind of a value and not from its content. -/
abbrev ShapeFault.IsKindFault (fault : ShapeFault) : Prop := fault.isContentFault = false

namespace Value

/-- A value can be a key exactly if it is hashable. -/
theorem guarded_asKey_unhashable (v : Value) :
    Guarded v.asKey (v.hashable = true) fun fault => ∃ kind, fault = .unhashable kind := by
  refine ⟨fun h => ⟨v, asKey_of_hashable h⟩, fun h => ?_⟩
  rw [hashable, Option.isNone_iff_eq_none, ← ne_eq, Option.ne_none_iff_exists'] at h
  obtain ⟨kind, hkind⟩ := h
  exact ⟨.unhashable kind, by rw [asKey, hkind], kind, rfl⟩

/-- What keeps a value from being a key comes from its kind. -/
theorem guarded_asKey (v : Value) :
    Guarded v.asKey (v.hashable = true) ShapeFault.IsKindFault :=
  v.guarded_asKey_unhashable.imp fun _ ⟨_, hfault⟩ => hfault ▸ rfl

end Value

end PolicyAuthoring
