import PolicyAuthoring.Sentence
import PolicyAuthoring.Proofs.RoundTrip

/-!
# What compiling and the review sentence see

Compiling a selection and showing it as a sentence go through its picks independently of each other,
and both pass over what makes no condition. This file shows that they pass over the same things:
both see no more of a selection than its normal form.

- `Selection.Alike` says when two selections make the same clauses on every side that they cover and
  agree in the rest, and `compile_congr` and `sentence_congr` that compiling and the sentence cannot
  tell such selections apart, failures included. `Selection.AlikeUnder` says it of selections that
  belong to different catalogs.
- `normalForm_alike`: a selection and its normal form are alike.
- `compile_sentence_normalForm` adds that the normal form is its own normal form and that selections
  with the same normal form cannot be told apart.

No catalog is excluded: identifiers may recur, and names may be any values.
-/

namespace PolicyAuthoring

variable {r r' : Registry} {c c' : Catalog} {s t : Selection} {picks : Picks}

/-! ## Picks that make conditions -/

namespace Catalog

/-- Among the picks that make conditions, every attribute has the operator of its condition. -/
theorem lookup_effective_operators (hpicks : Table.Distinct picks.values) {entry : Value × Value}
    (hentry : entry ∈ picks.values) (heffective : c.isEffective entry = true) {a : Attribute}
    (ha : c.get? entry.1 = some a) :
    (c.effective picks).operators.lookup entry.1 =
      some (.text (Operator.resolve a entry.2
        ((picks.operators.lookup entry.1).getD .null)).word) := by
  have hdistinct : Table.Distinct (c.effective picks).operators := by
    -- Every operator stands under the key of a pick, and these are distinct.
    rw [Table.Distinct, effective, List.pairwise_filterMap]
    refine List.Pairwise.imp (fun {e f} hne x hx y hy => ?_) (hpicks.filter _)
    obtain ⟨_, -, rfl⟩ := Option.map_eq_some_iff.mp hx
    obtain ⟨_, -, rfl⟩ := Option.map_eq_some_iff.mp hy
    exact hne
  have hmem : (entry.1, Value.text (Operator.resolve a entry.2
      ((picks.operators.lookup entry.1).getD .null)).word) ∈ (c.effective picks).operators := by
    rw [effective, List.mem_filterMap]
    exact ⟨entry, List.mem_filter.mpr ⟨hentry, heffective⟩, by rw [ha]; rfl⟩
  exact Table.lookup_of_mem hdistinct hmem

/-- The picks that make conditions make the same clauses as all picks. -/
theorem clauses_effective (hpicks : Table.Distinct picks.values) :
    c.clauses (c.effective picks) = c.clauses picks := by
  have hvalues : (c.effective picks).values = picks.values.filter c.isEffective := rfl
  rw [clauses, clauses, hvalues, List.filterMap_filter]
  refine List.filterMap_congr fun entry hentry => ?_
  cases heffective : c.isEffective entry with
  | false => rw [if_neg Bool.false_ne_true, clause?_of_not_isEffective heffective]
  | true =>
    -- The operator that the condition has is one that is kept when it is chosen.
    obtain ⟨a, ha, hclause⟩ := clause?_of_isEffective picks.operators heffective
    obtain ⟨b, hb, hclause'⟩ :=
      clause?_of_isEffective (c.effective picks).operators heffective
    rw [ha, Option.some.injEq] at hb
    subst hb
    rw [if_pos rfl, hclause, hclause', lookup_effective_operators hpicks hentry heffective ha,
      Option.getD_some, Operator.resolve_word_of_mem_domain (Operator.resolve_mem_domain _ _ _)]

/-- The picks that make conditions are all that is kept of them again. -/
theorem effective_effective (hpicks : Table.Distinct picks.values) :
    c.effective (c.effective picks) = c.effective picks := by
  have hvalues : (c.effective picks).values.filter c.isEffective = (c.effective picks).values := by
    rw [effective, List.filter_filter]
    simp only [Bool.and_self]
  have hoperators :
      (c.effective (c.effective picks)).operators = (c.effective picks).operators := by
    rw [effective.eq_def c (c.effective picks), hvalues]
    change List.filterMap _ (picks.values.filter c.isEffective) =
      List.filterMap _ (picks.values.filter c.isEffective)
    refine List.filterMap_congr fun entry hentry => ?_
    obtain ⟨hentry, heffective⟩ := List.mem_filter.mp hentry
    obtain ⟨a, ha, -⟩ := clause?_of_isEffective [] heffective
    rw [ha, Option.map_some, Option.map_some,
      lookup_effective_operators hpicks hentry heffective ha, Option.getD_some,
      Operator.resolve_word_of_mem_domain (Operator.resolve_mem_domain _ _ _)]
  calc c.effective (c.effective picks)
      = ⟨(c.effective picks).values.filter c.isEffective,
          (c.effective (c.effective picks)).operators⟩ := rfl
    _ = c.effective picks := by rw [hvalues, hoperators]

end Catalog

/-! ## Selections that are alike -/

/-- Two selections, each for a catalog of its own, that agree in what is looked at without the
catalog and make the same clauses on every side that they cover. -/
structure Selection.AlikeUnder (c c' : Catalog) (s t : Selection) : Prop where
  /-- They have the same name, or names that fail to be stripped in the same way. -/
  name : (s.name.orElse (.text "")).strip = (t.name.orElse (.text "")).strip
  /-- They have the same description, or descriptions that fail to be stripped in the same way. -/
  description : (s.description.orElse (.text "")).strip = (t.description.orElse (.text "")).strip
  /-- They have the same effect. -/
  effect : s.effect = t.effect
  /-- They have the same status. -/
  status : s.status = t.status
  /-- They have the same subject. -/
  subject : s.subject = t.subject
  /-- They have the same actions. -/
  actions : s.actions = t.actions
  /-- They have the same resources. -/
  resources : s.resources = t.resources
  /-- The same additional resources can be attached. -/
  additionalResources : s.additionalResources.filter Value.isNonBlankText =
    t.additionalResources.filter Value.isNonBlankText
  /-- They make the same clauses on every side that they cover. -/
  clauses : ∀ side, s.covers side = true → c.clauses (s.picks side) = c'.clauses (t.picks side)

/-- Two selections that are alike for one catalog. -/
abbrev Selection.Alike (c : Catalog) (s t : Selection) : Prop := AlikeUnder c c s t

namespace Registry

section AlikeUnder

variable (h : s.AlikeUnder r.catalog r'.catalog t) (hdirectory : r.directory = r'.directory)

include h

/-- Alike selections have the same attachments. -/
theorem attachments_eq_of_alikeUnder : r.attachments s = r'.attachments t := by
  rw [attachments, attachments, h.additionalResources]
  cases hcovers : s.covers .additional with
  | true =>
    have hadditional : r.catalog.conditions s.additionalPicks =
        r'.catalog.conditions t.additionalPicks :=
      congrArg (List.map Clause.condition) (h.clauses .additional hcovers)
    rw [hadditional]
  | false =>
    -- Where nothing can be attached, the conditions make no difference.
    rw [← h.additionalResources, Selection.filter_eq_nil_of_not_covers hcovers, List.map_nil,
      List.map_nil]

include hdirectory

/-- Alike selections have the same rules, or fail to have any in the same way. -/
theorem rules_eq_of_alikeUnder (stem : Stem) : r.rules stem s = r'.rules stem t := by
  have hsubject : r.catalog.conditions s.subjectPicks = r'.catalog.conditions t.subjectPicks :=
    congrArg (List.map Clause.condition) (h.clauses .subject rfl)
  have hresource : r.catalog.conditions s.resourcePicks = r'.catalog.conditions t.resourcePicks :=
    congrArg (List.map Clause.condition) (h.clauses .resource rfl)
  simp only [rules, labelledActions, pairRules, hdirectory, h.actions, h.resources, h.subject,
    hsubject, hresource]

/-- Compiling alike selections, each against a catalog of its own, gives the same document or the
same fault. -/
theorem compile_eq_of_alikeUnder (stem : Stem) : r.compile stem s = r'.compile stem t := by
  have hmissing : s.missingParts = t.missingParts := by
    rw [Selection.missingParts, Selection.missingParts, h.subject, h.actions, h.resources]
  have hassemble (rules : List Rule) (additionalResources : List Attachment) :
      assemble s rules additionalResources = assemble t rules additionalResources := by
    rw [assemble, assemble, h.name, h.description, h.effect, h.status, h.subject, h.actions,
      h.resources]
  simp only [compile, hmissing, rules_eq_of_alikeUnder h hdirectory,
    attachments_eq_of_alikeUnder h, hassemble]

/-- Alike selections say the same about their additional resources. -/
theorem additionalClause_eq_of_alikeUnder : r.additionalClause s = r'.additionalClause t := by
  rw [additionalClause, additionalClause, joinReferences, joinReferences, hdirectory,
    h.additionalResources]
  cases hcovers : s.covers .additional with
  | true =>
    have hadditional : r.pickPhrases s.additionalPicks = r'.pickPhrases t.additionalPicks :=
      congrArg (List.mapM clausePhrase) (h.clauses .additional hcovers)
    rw [hadditional]
  | false =>
    rw [← h.additionalResources, Selection.filter_eq_nil_of_not_covers hcovers]
    rfl

/-- Alike selections, each for a catalog of its own, have the same review sentence, or fail to have
one in the same way. -/
theorem sentence_eq_of_alikeUnder : r.sentence s = r'.sentence t := by
  have hsubject : r.pickPhrases s.subjectPicks = r'.pickPhrases t.subjectPicks :=
    congrArg (List.mapM clausePhrase) (h.clauses .subject rfl)
  have hresource : r.pickPhrases s.resourcePicks = r'.pickPhrases t.resourcePicks :=
    congrArg (List.mapM clausePhrase) (h.clauses .resource rfl)
  simp only [sentence, joinActions, joinReferences, hdirectory, h.subject, h.effect, h.actions,
    h.resources, hsubject, hresource, additionalClause_eq_of_alikeUnder h hdirectory]

end AlikeUnder

/-- Compiling alike selections gives the same document or the same fault. -/
theorem compile_congr (h : s.Alike r.catalog t) (stem : Stem) :
    r.compile stem s = r.compile stem t :=
  compile_eq_of_alikeUnder h rfl stem

/-- Alike selections have the same review sentence, or fail to have one in the same way. -/
theorem sentence_congr (h : s.Alike r.catalog t) : r.sentence s = r.sentence t :=
  sentence_eq_of_alikeUnder h rfl

end Registry

/-! ## The normal form -/

namespace Catalog

/-- The normal form covers the same sides. -/
theorem covers_normalForm (c : Catalog) (s : Selection) (side : Side) :
    (c.normalForm s).covers side = s.covers side := by
  cases side with
  | subject => rfl
  | resource => rfl
  | additional =>
    rw [Selection.covers_additional, Selection.covers_additional, normalForm, List.filter_filter]
    simp only [Bool.and_self]

/-- On a side that is covered, the normal form keeps the picks that make conditions. -/
theorem picks_normalForm {side : Side} (h : s.covers side = true) :
    (c.normalForm s).picks side = c.effective (s.picks side) := by
  cases side with
  | subject => rfl
  | resource => rfl
  | additional => exact if_pos h

/-- A selection and its normal form are alike. -/
theorem normalForm_alike (hkeyed : s.Keyed) : (c.normalForm s).Alike c s where
  name := by
    change ((s.name.orElse (.text "")).stripped.orElse (.text "")).strip = _
    rw [Value.orElse_stripped_orElse, Value.strip_stripped]
  description := by
    change ((s.description.orElse (.text "")).stripped.orElse (.text "")).strip = _
    rw [Value.orElse_stripped_orElse, Value.strip_stripped]
  effect := rfl
  status := rfl
  subject := rfl
  actions := rfl
  resources := rfl
  additionalResources := by
    rw [normalForm, List.filter_filter]
    simp only [Bool.and_self]
  clauses := fun side hside => by
    rw [covers_normalForm] at hside
    rw [picks_normalForm hside, clauses_effective (hkeyed side)]

/-- The normal form of a selection is its own normal form. -/
theorem normalForm_normalForm (hkeyed : s.Keyed) :
    c.normalForm (c.normalForm s) = c.normalForm s := by
  have hsubject := effective_effective (c := c) (hkeyed .subject)
  have hresource := effective_effective (c := c) (hkeyed .resource)
  have hadditional := effective_effective (c := c) (hkeyed .additional)
  have hcovers := covers_normalForm c s .additional
  have hsifted := (normalForm_alike (c := c) hkeyed).additionalResources
  rw [normalForm.eq_def c (c.normalForm s), hcovers, hsifted]
  simp only [Selection.picks] at hsubject hresource hadditional
  simp only [normalForm, Value.orElse_stripped_orElse, Value.stripped_stripped, hsubject, hresource]
  cases s.covers .additional with
  | true => simp only [if_true, hadditional]
  | false => rfl

end Catalog

/-- The normal form of a selection is its own normal form, compiling it gives the same document or
the same fault, and its review sentence is the same. So neither compiling nor the review sentence
tells selections with the same normal form apart. -/
theorem compile_sentence_normalForm (r : Registry) (hkeyed : s.Keyed) :
    r.catalog.normalForm (r.catalog.normalForm s) = r.catalog.normalForm s ∧
      (∀ stem, r.compile stem (r.catalog.normalForm s) = r.compile stem s) ∧
      r.sentence (r.catalog.normalForm s) = r.sentence s ∧
      ∀ t : Selection, t.Keyed → r.catalog.normalForm t = r.catalog.normalForm s →
        (∀ stem, r.compile stem t = r.compile stem s) ∧ r.sentence t = r.sentence s := by
  have hs := Catalog.normalForm_alike (c := r.catalog) hkeyed
  refine ⟨Catalog.normalForm_normalForm hkeyed, Registry.compile_congr hs,
    Registry.sentence_congr hs, fun t htkeyed heq => ?_⟩
  have ht := Catalog.normalForm_alike (c := r.catalog) htkeyed
  rw [heq] at ht
  exact ⟨fun stem => (Registry.compile_congr ht stem).symm.trans (Registry.compile_congr hs stem),
    (Registry.sentence_congr ht).symm.trans (Registry.sentence_congr hs)⟩

/-- The selection of levels with other things in it that make no condition: an empty value, other
operators that are not on offer, a number among the additional resources. -/
def clutteredSelection : Selection :=
  { levelSelection with
    name := .text "Reading"
    subjectPicks :=
      { values := [(.text "secrecy", .list []), (.text "clearance", .list [.int 2, .int 3])]
        operators := [(.text "age", .text "equals"), (.text "clearance", .text "equals")] }
    additionalResources := [.int 5, .text "archive", .text ""] }

/-- What makes no condition makes no difference to the selection of levels. -/
theorem compile_sentence_normalForm_levels :
    levelSelection.Keyed ∧ clutteredSelection.Keyed ∧
      levels.normalForm clutteredSelection = levels.normalForm levelSelection ∧
      (∀ stem, Registry.compile { catalog := levels } stem clutteredSelection =
        Registry.compile { catalog := levels } stem levelSelection) ∧
      Registry.sentence { catalog := levels } clutteredSelection =
        Registry.sentence { catalog := levels } levelSelection := by
  obtain ⟨-, hkeyed, -⟩ := levelSelection_spec
  have hcluttered : clutteredSelection.Keyed := by
    intro side
    cases side <;> simp [clutteredSelection, levelSelection, Selection.picks, Table.Distinct]
  have heq : levels.normalForm clutteredSelection = levels.normalForm levelSelection := by rfl
  obtain ⟨-, -, -, hsame⟩ := compile_sentence_normalForm { catalog := levels } hkeyed
  exact ⟨hkeyed, hcluttered, heq, hsame clutteredSelection hcluttered heq⟩

example : (levels.normalForm clutteredSelection).subjectPicks.operators =
    [(.text "clearance", .text "in")] := by rfl

end PolicyAuthoring
