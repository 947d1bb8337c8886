import PolicyAuthoring.Proofs.NormalForm
import Mathlib.Data.List.Find

/-!
# Deleting attributes

An attribute may be deleted from the catalog while selections still have values for it. Such a
selection compiles and reads as if the values had been cleared (`compile_sentence_without`), whether
or not operators are left that were chosen for the attribute, and however many definitions share its
identifier.

The reason is that a selection depends on the catalog only through the definitions of the
identifiers that it uses (`clauses_eq_of_filter_uses_eq`), so definitions of other identifiers can
be added and taken away without effect.
-/

namespace PolicyAuthoring

variable {s : Selection} {attributes attributes' : List Attribute} {key id : Value}

/-! ## Deleting and clearing -/

/-- A catalog without the attributes that an identifier belongs to. -/
def Catalog.without (c : Catalog) (id : Value) : Catalog :=
  .ofList (c.attributes.filter fun a => !a.id.same id)

/-- Picks without the values for an identifier. The operator that was chosen stays. -/
def Picks.without (picks : Picks) (id : Value) : Picks :=
  { picks with values := picks.values.filter fun entry => !entry.1.same id }

namespace Selection

/-- A selection without the values for an identifier. -/
def without (s : Selection) (id : Value) : Selection :=
  { s with
    subjectPicks := s.subjectPicks.without id
    resourcePicks := s.resourcePicks.without id
    additionalPicks := s.additionalPicks.without id }

/-- Whether a selection has a value for an identifier on some side. -/
def uses (s : Selection) (id : Value) : Bool :=
  s.subjectPicks.values.contains id || s.resourcePicks.values.contains id ||
    s.additionalPicks.values.contains id

/-- The identifiers that a selection uses are texts. -/
def TextKeys (s : Selection) : Prop :=
  ∀ side, ∀ entry ∈ (s.picks side).values, entry.1.isText = true

/-- The values for an identifier are cleared side by side. -/
theorem picks_without (s : Selection) (id : Value) (side : Side) :
    (s.without id).picks side = (s.picks side).without id := by
  cases side <;> rfl

/-- A selection uses the keys of its values. -/
theorem uses_of_mem {side : Side} {entry : Value × Value}
    (hentry : entry ∈ (s.picks side).values) : s.uses entry.1 = true := by
  have hcontains : (s.picks side).values.contains entry.1 = true :=
    List.any_eq_true.mpr ⟨entry, hentry, Value.same_self entry.1⟩
  rw [uses]
  cases side <;> simp_all [picks]

/-- Clearing values leaves no other keys than texts. -/
theorem TextKeys.without (hkeys : s.TextKeys) (id : Value) : (s.without id).TextKeys := by
  intro side entry hentry
  rw [picks_without] at hentry
  exact hkeys side entry (List.mem_filter.mp hentry).1

/-- A selection does not use an identifier for which its values have been cleared. -/
theorem not_same_of_uses_without (hkeys : s.TextKeys) (h : (s.without id).uses key = true) :
    key.same id = false := by
  have hside : ∃ side, ∃ entry ∈ ((s.without id).picks side).values, entry.1.same key = true := by
    simp only [uses, Bool.or_eq_true, Table.contains, List.any_eq_true] at h
    rcases h with (h | h) | h
    · exact ⟨.subject, h⟩
    · exact ⟨.resource, h⟩
    · exact ⟨.additional, h⟩
  obtain ⟨side, entry, hentry, hsame⟩ := hside
  rw [picks_without] at hentry
  obtain ⟨hentry, hkept⟩ := List.mem_filter.mp hentry
  rw [(Value.same_iff_of_isText (hkeys side entry hentry)).mp hsame] at hkept
  simpa using hkept

end Selection

/-! ## What a selection depends on -/

namespace Catalog

/-- Among attributes that pass a test, a text finds what it finds among all, if the attributes that
it identifies pass. -/
theorem get?_ofList_filter {p : Attribute → Bool} (hkey : key.isText = true)
    (hp : ∀ a : Attribute, a.id = key → p a = true) :
    (ofList (attributes.filter p)).get? key = (ofList attributes).get? key := by
  rw [get?, get?, ofList, ofList, lookup_index_of_isText _ hkey, lookup_index_of_isText _ hkey,
    List.find?_filter]
  refine List.find?_congr fun a _ => ?_
  cases hsame : a.id.same key with
  | false => simp
  | true => simp [hp a ((Value.same_iff_of_isText_right hkey).mp hsame)]

/-- Catalogs that define the identifiers that a selection uses in the same way make the same clauses
of its picks. -/
theorem clauses_eq_of_filter_uses_eq (hkeys : s.TextKeys)
    (h : attributes'.filter (fun a => s.uses a.id) = attributes.filter fun a => s.uses a.id)
    (side : Side) :
    (ofList attributes').clauses (s.picks side) = (ofList attributes).clauses (s.picks side) := by
  refine List.filterMap_congr fun entry hentry => ?_
  have hused (a : Attribute) (ha : a.id = entry.1) : s.uses a.id = true := by
    rw [ha]
    exact Selection.uses_of_mem hentry
  have htext := hkeys side entry hentry
  have hfound : (ofList attributes').get? entry.1 = (ofList attributes).get? entry.1 := by
    rw [← get?_ofList_filter htext hused, h, get?_ofList_filter htext hused]
  rw [clause?, clause?, hfound]

/-- A catalog in which an identifier is not defined makes the same clauses whether or not the values
for the identifier have been cleared. -/
theorem clauses_without (c : Catalog) {picks : Picks}
    (hkeys : ∀ entry ∈ picks.values, entry.1.isText = true) (id : Value) :
    (c.without id).clauses (picks.without id) = (c.without id).clauses picks := by
  rw [clauses, clauses, Picks.without, List.filterMap_filter]
  refine List.filterMap_congr fun entry hentry => ?_
  cases hsame : entry.1.same id with
  | false => rfl
  | true =>
    have htext := hkeys entry hentry
    have hkey := (Value.same_iff_of_isText htext).mp hsame
    -- What the identifier belonged to is gone, so its values make no clause.
    have hnone : (c.without id).get? entry.1 = none := by
      rw [get?_eq_none_iff htext]
      intro a ha hid
      have hkept := (List.mem_filter.mp ha).2
      rw [hid, hsame] at hkept
      cases hkept
    rw [Bool.not_true, if_neg Bool.false_ne_true, clause?, hnone]
    exact (ite_self none).symm

end Catalog

namespace Registry

variable {c c' : Catalog}

/-- Catalogs that make the same clauses of a selection compile it to the same document, or with the
same fault, and give it the same review sentence. -/
theorem compile_sentence_of_clauses_eq
    (h : ∀ side, c.clauses (s.picks side) = c'.clauses (s.picks side)) (d : Directory) :
    (∀ stem, compile ⟨c, d⟩ stem s = compile ⟨c', d⟩ stem s) ∧
      sentence ⟨c, d⟩ s = sentence ⟨c', d⟩ s := by
  have halike : s.AlikeUnder c c' s :=
    ⟨rfl, rfl, rfl, rfl, rfl, rfl, rfl, rfl, fun side _ => h side⟩
  exact ⟨compile_eq_of_alikeUnder halike (Eq.refl d), sentence_eq_of_alikeUnder halike (Eq.refl d)⟩

end Registry

/-- Compiling a selection after an attribute has been deleted from the catalog gives the document,
or the fault, that compiling gives before if the values for the attribute are cleared instead, and
the review sentence is the same as well. Definitions of identifiers that a selection does not use,
added wherever in the catalog, change neither. -/
theorem compile_sentence_without (attributes : List Attribute) (d : Directory)
    (hkeys : s.TextKeys) :
    (∀ id,
      (∀ stem, Registry.compile ⟨(Catalog.ofList attributes).without id, d⟩ stem s =
        Registry.compile ⟨.ofList attributes, d⟩ stem (s.without id)) ∧
      Registry.sentence ⟨(Catalog.ofList attributes).without id, d⟩ s =
        Registry.sentence ⟨.ofList attributes, d⟩ (s.without id)) ∧
    ∀ attributes' : List Attribute,
      attributes'.filter (fun a => s.uses a.id) = attributes.filter (fun a => s.uses a.id) →
      (∀ stem, Registry.compile ⟨.ofList attributes', d⟩ stem s =
        Registry.compile ⟨.ofList attributes, d⟩ stem s) ∧
      Registry.sentence ⟨.ofList attributes', d⟩ s =
        Registry.sentence ⟨.ofList attributes, d⟩ s := by
  refine ⟨fun id => ?_, fun attributes' h => Registry.compile_sentence_of_clauses_eq
    (Catalog.clauses_eq_of_filter_uses_eq hkeys h) d⟩
  have hkept :
      (attributes.filter fun a => !a.id.same id).filter (fun a => (s.without id).uses a.id) =
      attributes.filter fun a => (s.without id).uses a.id := by
    rw [List.filter_filter]
    refine List.filter_congr fun a _ => ?_
    cases huses : (s.without id).uses a.id with
    | false => rfl
    | true => rw [Selection.not_same_of_uses_without hkeys huses]; rfl
  have halike : s.Alike ((Catalog.ofList attributes).without id) (s.without id) :=
    ⟨rfl, rfl, rfl, rfl, rfl, rfl, rfl, rfl, fun side _ => by
      rw [Selection.picks_without, Catalog.clauses_without _ (hkeys side)]⟩
  -- First clear the values under the catalog without the attribute, then put the attribute back.
  obtain ⟨hcompile, hsentence⟩ := Registry.compile_sentence_of_clauses_eq
    (Catalog.clauses_eq_of_filter_uses_eq (hkeys.without id) hkept) d
  exact ⟨fun stem => (Registry.compile_congr halike stem).trans (hcompile stem),
    (Registry.sentence_congr halike).trans hsentence⟩

/-- A definition of secrecy between two definitions of clearance, of which the first one counts. -/
def repeatedLevels : List Attribute := [
  { id := .text "clearance", name := .text "level", displayName := .text "Clearance" },
  { id := .text "secrecy", name := .text "level", displayName := .text "Secrecy" },
  { id := .text "clearance", name := .text "rank", displayName := .text "Rank" }]

/-- The identifier of the clearance. -/
def clearanceId : Value := .text "clearance"

/-- A definition under an identifier for which the selection of levels has no value. -/
def floorDefinition : Attribute :=
  { id := .text "floor", name := .text "level", displayName := .text "Floor" }

/-- The selection of levels after both definitions of clearance have been deleted, and after a
definition of a floor has been added. -/
theorem compile_sentence_without_clearance :
    levelSelection.TextKeys ∧
      (∀ stem, Registry.compile { catalog := (Catalog.ofList repeatedLevels).without clearanceId }
          stem levelSelection =
        Registry.compile { catalog := .ofList repeatedLevels } stem
          (levelSelection.without clearanceId)) ∧
      Registry.sentence { catalog := (Catalog.ofList repeatedLevels).without clearanceId }
          levelSelection =
        Registry.sentence { catalog := .ofList repeatedLevels }
          (levelSelection.without clearanceId) ∧
      (floorDefinition :: repeatedLevels).filter (fun a => levelSelection.uses a.id) =
        repeatedLevels.filter (fun a => levelSelection.uses a.id) ∧
      Registry.sentence { catalog := .ofList (floorDefinition :: repeatedLevels) } levelSelection =
        Registry.sentence { catalog := .ofList repeatedLevels } levelSelection := by
  have hkeys : levelSelection.TextKeys := by
    intro side
    cases side <;> simp [levelSelection, Selection.picks, Value.isText, Value.kind]
  have hfloor : (floorDefinition :: repeatedLevels).filter (fun a => levelSelection.uses a.id) =
      repeatedLevels.filter (fun a => levelSelection.uses a.id) := by rfl
  obtain ⟨hdelete, hadd⟩ := compile_sentence_without repeatedLevels {} hkeys
  obtain ⟨hcompile, hsentence⟩ := hdelete clearanceId
  exact ⟨hkeys, hcompile, hsentence, hfloor, (hadd _ hfloor).2⟩

example : Registry.sentence { catalog := .ofList repeatedLevels }
    (levelSelection.without clearanceId) = .ok
      "This policy ALLOWS clerk to perform read actions on file (where secrecy is low) if archive." :=
  by rfl

end PolicyAuthoring
