import PolicyAuthoring.Proofs.Reopening
import PolicyAuthoring.Proofs.Rereading
import Mathlib.Logic.Function.Iterate

/-!
# Resaving documents

An author who reopens a document and saves it again compiles the selection that comes of reopening
it (`Registry.resave`). Resaving can move a condition to another attribute, namely to the one that
its name finds, and can merge conditions that move to the same attribute. This file shows that it
cannot go on like that:

- `resave_document`: nothing changes at all if every name finds an attribute of the same name and
  the same data type, also if it is a different attribute;
- `resaves_become_constant`: whatever the document was, resaving it over and over changes nothing
  any more after as many times as there are attributes, and once more.

The second rests on the search order. A condition that moves gets an attribute that stands earlier
in it, so after `k` times a condition either has come to rest or is at least `k` places from the
end (`Settling`).
-/

namespace PolicyAuthoring

variable {r : Registry} {c : Catalog} {s : Selection} {stem : Stem} {start : String} {side : Side}

/-- Reopen a document and compile it again. -/
def Registry.resave (r : Registry) (stem : Stem) (d : Document) : Except Fault Document := do
  r.compile stem (← r.catalog.hydrate d)

/-- Resaving a document that is reopened as a compilable selection gives the document of that
selection. -/
theorem Registry.resave_eq_document {d : Document} (hd : r.catalog.hydrate d = .ok s)
    (hs : s.Compilable) (hstem : stem.text = .ok start) :
    r.resave stem d = .ok (r.document start s) := by
  rw [resave, hd]
  exact compile_eq_document hs hstem

/-! ## Stability -/

/-- The attribute that the name of the condition of a clause finds. -/
def Catalog.target (c : Catalog) (category : Category) (x : Clause) : Attribute :=
  (c.resolve? category x.definition.name).getD x.definition

/-- A side makes the same conditions after reopening if the names of its attributes differ and each
of them finds an attribute of the same name and data type. -/
theorem Catalog.Identified.conditions_reopened_of_same_kind (hc : c.Identified)
    (hcovers : s.covers side = true)
    (hnames : ((c.clauses (s.picks side)).map fun x => x.definition.name).Nodup)
    (hfound : ∀ x ∈ c.clauses (s.picks side), ∃ a,
      c.resolve? side.category x.definition.name = some a ∧ a.name = x.definition.name ∧
        a.dataType = x.definition.dataType) :
    c.conditions ((c.reopened s).picks side) = c.conditions (s.picks side) := by
  have htarget : ∀ x ∈ c.clauses (s.picks side),
      c.resolve? side.category x.definition.name = some (c.target side.category x) ∧
        (c.target side.category x).name = x.definition.name ∧
        (c.target side.category x).dataType = x.definition.dataType := by
    intro x hx
    obtain ⟨a, ha, hname, htype⟩ := hfound x hx
    rw [target, ha]
    exact ⟨rfl, hname, htype⟩
  -- What is found has the name it was found by, so different names find different attributes.
  have hnodup : ((c.clauses (s.picks side)).map fun x => (c.target side.category x).id).Nodup := by
    rw [List.Nodup, List.pairwise_map] at hnames ⊢
    refine List.Pairwise.imp_of_mem (fun {x y} hx hy hne hid => hne ?_) hnames
    obtain ⟨hxfound, hxname, -⟩ := htarget x hx
    obtain ⟨hyfound, hyname, -⟩ := htarget y hy
    have heq := hc.eq_of_id_eq (mem_of_resolve? hxfound).1 (mem_of_resolve? hyfound).1 hid
    rw [← hxname, ← hyname, heq]
  have hclauses := hc.clauses_filed_of_targets (fun x hx => (htarget x hx).1) hnodup
    fun x hx => (hc.mem_clauses_iff.mp hx).2.2.1
  -- The attributes are exchanged for ones that give their conditions the same name and operator.
  rw [picks_reopened hcovers, conditions, conditions, hclauses, List.map_map]
  refine List.map_congr_left fun x hx => ?_
  obtain ⟨-, hname, htype⟩ := htarget x hx
  rw [Function.comp_apply, Clause.condition, Clause.condition, hname,
    Operator.resolve_congr htype, Operator.resolve_word_of_mem_domain (hc.operator_mem_domain hx)]

/-- The conditions of a compiled document have an operator. -/
theorem Registry.truthy_operator_of_mem_document {x : Condition}
    (hx : x ∈ (r.document start s).heldConditions) : x.operator.truthy = true := by
  obtain ⟨_, -, clause, -, rfl⟩ := exists_clause_of_mem_document hx
  exact Operator.truthy_word clause.operator

/-- A compiled document is reopened as the same selection after it has been stored and read again,
if no condition is on a tuple. -/
theorem Registry.hydrate_reread_document (hs : s.Compilable)
    (hvalues : ∀ x ∈ (r.document start s).heldConditions, x.value.kind ≠ .tuple) :
    c.hydrate (r.document start s).reread = c.hydrate (r.document start s) := by
  refine c.hydrate_reread (Value.orElse_stripped hs.description_text) fun x hx => ?_
  have hvalue : Condition.plainValue x.value = x.value := by
    have hkind := hvalues x hx
    cases hx : x.value with
    | tuple items => exact absurd (congrArg Value.kind hx) hkind
    | _ => rfl
  rw [Condition.reread, Value.orElse_of_truthy (truthy_operator_of_mem_document hx), hvalue]

/-- Resaving a compiled document changes nothing, also if the document has been stored and read
again in between, if on each covered side the names of the attributes differ and each name finds an
attribute of the same name and data type. -/
theorem resave_document (hc : r.catalog.Identified) (hs : s.Compilable)
    (hstem : stem.text = .ok start)
    (hnames : ∀ side, s.covers side = true →
      ((r.catalog.clauses (s.picks side)).map fun x => x.definition.name).Nodup)
    (hfound : ∀ side, s.covers side = true → ∀ x ∈ r.catalog.clauses (s.picks side), ∃ a,
      r.catalog.resolve? side.category x.definition.name = some a ∧
        a.name = x.definition.name ∧ a.dataType = x.definition.dataType) :
    ∃ d, r.compile stem s = .ok d ∧ r.resave stem d = .ok d ∧
      ((∀ x ∈ d.heldConditions, x.value.kind ≠ .tuple) →
        ∃ d', Document.ofValue d.toValue = .ok d' ∧ r.resave stem d' = .ok d) := by
  have hdocument : r.document start (r.catalog.reopened s) = r.document start s :=
    Registry.document_reopened hs fun side hside =>
      hc.conditions_reopened_of_same_kind hside (hnames side hside) (hfound side hside)
  have hhydrate : r.catalog.hydrate (r.document start s) = .ok (r.catalog.reopened s) :=
    hc.hydrate_document hs.complete
  -- In both cases the selection that comes back is the reopened one.
  refine ⟨_, Registry.compile_eq_document hs hstem, ?_, fun hvalues =>
    ⟨_, Document.ofValue_toValue _, ?_⟩⟩
  · rw [Registry.resave_eq_document hhydrate (Catalog.compilable_reopened hs) hstem, hdocument]
  · rw [← Registry.hydrate_reread_document (c := r.catalog) hs hvalues] at hhydrate
    rw [Registry.resave_eq_document hhydrate (Catalog.compilable_reopened hs) hstem, hdocument]

/-- Resaving moves the value for a grade to the clearance, which the document does not show. -/
theorem resave_document_grades :
    grades.Identified ∧ gradeSelection.Compilable ∧
      ∃ d, Registry.compile { catalog := grades } (.unique 7) gradeSelection = .ok d ∧
        Registry.resave { catalog := grades } (.unique 7) d = .ok d ∧
        ∃ d', Document.ofValue d.toValue = .ok d' ∧
          Registry.resave { catalog := grades } (.unique 7) d' = .ok d := by
  obtain ⟨hs, -⟩ := gradeSelection_spec
  have hnames : ∀ side, gradeSelection.covers side = true →
      ((grades.clauses (gradeSelection.picks side)).map fun x => x.definition.name).Nodup := by
    intro side _
    cases side with
    | subject => exact List.nodup_singleton _
    | resource => exact List.nodup_nil
    | additional => exact List.nodup_nil
  have hfound : ∀ side, gradeSelection.covers side = true →
      ∀ x ∈ grades.clauses (gradeSelection.picks side), ∃ a,
        grades.resolve? side.category x.definition.name = some a ∧
          a.name = x.definition.name ∧ a.dataType = x.definition.dataType := by
    intro side _ x hx
    cases side with
    | subject =>
      cases List.mem_singleton.mp hx
      exact ⟨_, rfl, rfl, rfl⟩
    | resource => cases hx
    | additional => cases hx
  have hstem : (Stem.unique 7).text = .ok _ := rfl
  obtain ⟨d, hd, hresave, hreread⟩ :=
    resave_document (r := { catalog := grades }) identified_grades hs hstem hnames hfound
  refine ⟨identified_grades, hs, d, hd, hresave, hreread ?_⟩
  rw [Registry.compile_eq_document hs rfl, Except.ok.injEq] at hd
  rw [← hd]
  intro x hx
  cases List.mem_singleton.mp hx
  exact Value.Kind.noConfusion

/-! ## Convergence -/

/-- Every condition of the covered sides has come to rest at the attribute that its name finds, or
its attribute stands at least `k` places from the end of the search order. -/
def Catalog.Settling (c : Catalog) (k : Nat) (s : Selection) : Prop :=
  ∀ side, ∀ x ∈ c.clauses (s.picks side),
    c.resolve? side.category x.definition.name = some x.definition ∨
      c.rank side.category x.definition + k < c.size

namespace Catalog

/-- At the start every attribute is in its place in the search order. -/
theorem Identified.settling_zero (hc : c.Identified) (s : Selection) : c.Settling 0 s :=
  fun _ _ hx => Or.inr (rank_lt_size (hc.mem_clauses_iff.mp hx).1)

/-- Reopening moves every condition that has not come to rest at least one place forward. -/
theorem Identified.settling_reopened (hc : c.Identified) {k : Nat} (hs : c.Settling k s) :
    c.Settling (k + 1) (c.reopened s) := by
  intro side y hy
  -- A clause after reopening is about what the name of a clause before it finds.
  obtain ⟨x, hx, hxy⟩ := hc.exists_of_mem_clauses_reopened hy
  rcases hs side x hx with hrest | hmoving
  · rw [hrest, Option.some.injEq] at hxy
    rw [← hxy]
    exact Or.inl hrest
  · -- A clause that stays where it was has come to rest, and any other one moves forward.
    by_cases heq : y.definition = x.definition
    · rw [heq] at hxy ⊢
      exact Or.inl hxy
    · have hrank := hc.rank_lt_of_resolve? (hc.mem_clauses_iff.mp hx).1 hxy heq
      exact Or.inr (by omega)

/-- After `k` times every condition has come to rest or moved by `k` places. -/
theorem Identified.settling_iterate (hc : c.Identified) (s : Selection) (k : Nat) :
    c.Settling k (c.reopened^[k] s) := by
  induction k with
  | zero => exact hc.settling_zero s
  | succ k ih =>
    rw [Function.iterate_succ_apply']
    exact hc.settling_reopened ih

/-- Nothing can have moved by more places than there are attributes, so all conditions have come to
rest then. -/
theorem Settling.resolve?_eq {k : Nat} (hs : c.Settling k s) (hk : c.size ≤ k) {x : Clause}
    (hx : x ∈ c.clauses (s.picks side)) :
    c.resolve? side.category x.definition.name = some x.definition :=
  (hs side x hx).resolve_right (by omega)

/-- A side on which all conditions have come to rest makes the same conditions after reopening. -/
theorem Identified.conditions_reopened_of_rest (hc : c.Identified) (hkeyed : s.Keyed)
    (hcovers : s.covers side = true)
    (hrest : ∀ x ∈ c.clauses (s.picks side),
      c.resolve? side.category x.definition.name = some x.definition) :
    c.conditions ((c.reopened s).picks side) = c.conditions (s.picks side) := by
  refine hc.conditions_reopened_of_same_kind hcovers ?_ fun x hx => ⟨_, hrest x hx, rfl, rfl⟩
  -- Attributes that are found by their own names cannot share one.
  have hids := hc.nodup_definitions (hkeyed side)
  rw [List.Nodup, List.pairwise_map] at hids ⊢
  refine List.Pairwise.imp_of_mem (fun {x y} hx hy hne hname => hne ?_) hids
  have hfound := hrest x hx
  rw [hname, hrest y hy, Option.some.injEq] at hfound
  rw [hfound]

/-- Reopening over and over keeps a selection compilable and its keys distinct. -/
theorem compilable_iterate (c : Catalog) (hs : s.Compilable) (hkeyed : s.Keyed) (k : Nat) :
    (c.reopened^[k] s).Compilable ∧ (c.reopened^[k] s).Keyed := by
  induction k with
  | zero => exact ⟨hs, hkeyed⟩
  | succ k ih =>
    rw [Function.iterate_succ_apply']
    exact ⟨compilable_reopened ih.1, c.keyed_reopened _⟩

end Catalog

/-- Resaving a document over and over never fails, and changes nothing any more after as many times
as the catalog has attributes, and once more. -/
theorem resaves_become_constant (hc : r.catalog.Identified) (hstem : stem.text = .ok start)
    {d : Document} (hd : r.catalog.hydrate d = .ok s) (hs : s.Compilable) :
    ∃ docs : Nat → Document, docs 0 = d ∧ (∀ i, r.resave stem (docs i) = .ok (docs (i + 1))) ∧
      (∀ i, ∃ t, r.catalog.hydrate (docs i) = .ok t ∧ t.isComplete = true) ∧
      ∀ i, r.catalog.size + 1 ≤ i → docs (i + 1) = docs i := by
  -- After the first, every document is that of the selection reopened over and over.
  have hiterate := r.catalog.compilable_iterate hs (Catalog.keyed_of_hydrate hd)
  let docs : Nat → Document
    | 0 => d
    | i + 1 => r.document start (r.catalog.reopened^[i] s)
  have hhydrate : ∀ i, r.catalog.hydrate (docs i) = .ok (r.catalog.reopened^[i] s) := by
    intro i
    cases i with
    | zero => exact hd
    | succ i =>
      rw [Function.iterate_succ_apply']
      exact hc.hydrate_document (hiterate i).1.complete
  refine ⟨docs, rfl, fun i => Registry.resave_eq_document (hhydrate i) (hiterate i).1 hstem,
    fun i => ⟨_, hhydrate i, (hiterate i).1.complete⟩, fun i hi => ?_⟩
  -- By then everything has come to rest, and reopening leaves the document as it is.
  obtain ⟨k, rfl⟩ : ∃ k, i = k + 1 := ⟨i - 1, by omega⟩
  obtain ⟨hk, hkeyed⟩ := hiterate k
  change r.document start (r.catalog.reopened^[k + 1] s) =
    r.document start (r.catalog.reopened^[k] s)
  rw [Function.iterate_succ_apply']
  refine Registry.document_reopened hk fun side hside => ?_
  exact hc.conditions_reopened_of_rest hkeyed hside fun x hx =>
    (hc.settling_iterate s k).resolve?_eq (by omega) hx

/-- A document with a condition on a grade, which it identifies instead of naming it. -/
def gradeDocument : Document where
  name := .text ""
  subjects := [.text "clerk"]
  resources := [.text "file"]
  actions := [.text "read"]
  rules := [{
    id := .text "rule", subject := .text "clerk", action := .text "read"
    actionLabel := .text "read", object := .text "file"
    subjectConditions := [
      { name := .text "grade", operator := .text "", value := .int 3 }] }]

/-- The document with a condition on a grade changes no more after three times. -/
theorem resaves_become_constant_grades :
    ∃ docs : Nat → Document, docs 0 = gradeDocument ∧
      (∀ i, Registry.resave { catalog := grades } (.unique 7) (docs i) = .ok (docs (i + 1))) ∧
      ∀ i, 3 ≤ i → docs (i + 1) = docs i := by
  obtain ⟨hs, -⟩ := gradeSelection_spec
  have hd : grades.hydrate gradeDocument = .ok gradeSelection := rfl
  have hstem : (Stem.unique 7).text = .ok _ := rfl
  obtain ⟨docs, hzero, hresave, -, hconstant⟩ :=
    resaves_become_constant (r := { catalog := grades }) identified_grades hstem hd hs
  exact ⟨docs, hzero, hresave, hconstant⟩

end PolicyAuthoring
