import PolicyAuthoring.Proofs.Compilation
import PolicyAuthoring.Proofs.Number.Decimal
import PolicyAuthoring.Proofs.Yaml.Quoted
import Mathlib.Data.List.Nodup

/-!
# The rules of a document

A compiled document has one rule for each pairing of an action with a resource. The rules are
numbered: with `m` resources, rule `k` pairs action `k / m` with resource `k % m`
(`getElem?_rules`). Its identifier is the stem of the compile, a hyphen and the number
(`ids_document`).

A stem may have a hyphen in it, in front of a time before the epoch, but a number has none. So an
identifier determines both the stem and the number (`eq_of_hyphen_eq`), and documents whose stems
come from different times or from different tokens (`Stem.Apart`) have no identifier in common.
Nothing else in a document depends on the stem (`anonymous_document`). All this is brought together
in `compile_rules`.
-/

namespace PolicyAuthoring

/-! ## Numbering pairs -/

/-- Item `k` of blocks that have `m` items each is item `k % m` of block `k / m`. -/
private theorem getElem?_flatMap_of_length {α β : Type} {m : Nat} (hm : 0 < m) {f : α → List β}
    (hf : ∀ a, (f a).length = m) (l : List α) (k : Nat) :
    (l.flatMap f)[k]? = l[k / m]?.bind fun a => (f a)[k % m]? := by
  induction l generalizing k with
  | nil => simp
  | cons a l ih =>
    rw [List.flatMap_cons, List.getElem?_append, hf a]
    by_cases hk : k < m
    · -- The item is in the first block.
      rw [if_pos hk, Nat.div_eq_of_lt hk, Nat.mod_eq_of_lt hk]
      simp
    · -- The item is in a later block, one block further on than in the list of these.
      obtain ⟨j, rfl⟩ := Nat.exists_eq_add_of_le (Nat.not_lt.mp hk)
      rw [if_neg hk, Nat.add_sub_cancel_left, ih, Nat.add_div_left j hm, Nat.add_mod_left]
      simp

/-! ## Identifiers -/

/-- What stands before and after the last hyphen of a text is determined by the text. -/
private theorem eq_of_append_hyphen_eq {before before' after after' : List Char}
    (hafter : '-' ∉ after) (hafter' : '-' ∉ after')
    (h : before ++ '-' :: after = before' ++ '-' :: after') : before = before' ∧ after = after' := by
  rw [List.append_eq_append_iff] at h
  -- If one side began earlier, its hyphen would stand among what follows the other one.
  rcases h with ⟨between, hbefore, hrest⟩ | ⟨between, hbefore, hrest⟩
  · cases between with
    | nil => simp_all
    | cons c between =>
      rw [List.cons_append, List.cons.injEq] at hrest
      exact absurd (by simp [hrest.2]) hafter
  · cases between with
    | nil => simp_all
    | cons c between =>
      rw [List.cons_append, List.cons.injEq] at hrest
      exact absurd (by simp [hrest.2]) hafter'

/-- An identifier made of a stem and a number determines both. -/
theorem eq_of_hyphen_eq {start start' : String} {k k' : Nat}
    (h : start ++ "-" ++ decimalText k = start' ++ "-" ++ decimalText k') :
    start = start' ∧ k = k' := by
  have htext (n : Nat) : (decimalText n).toList = decimalDigits n := by
    rw [decimalText, if_neg (by omega), String.toList_ofList, Int.natAbs_natCast]
  have hchars := congrArg String.toList h
  simp only [String.toList_append, htext, List.append_assoc] at hchars
  obtain ⟨hstart, hk⟩ := eq_of_append_hyphen_eq (hyphen_not_mem_decimalDigits k)
    (hyphen_not_mem_decimalDigits k') hchars
  exact ⟨String.toList_inj.mp hstart, decimalDigits_injective hk⟩

/-- Two stems come from different times, counted in milliseconds, or from different tokens. -/
inductive Stem.Apart : Stem → Stem → Prop
  /-- The clock stood at different times. -/
  | timestamp {clock clock' : Clock} {m m' : Int} (hm : clock.milliseconds = .ok m)
      (hm' : clock'.milliseconds = .ok m') (hne : m ≠ m') :
      Apart (.timestamp clock) (.timestamp clock')
  /-- The tokens differ. -/
  | unique {token token' : Nat} (hne : token ≠ token') : Apart (.unique token) (.unique token')

/-- Stems that come from different times or tokens have different texts. -/
theorem Stem.Apart.text_ne {stem stem' : Stem} {start start' : String} (h : stem.Apart stem')
    (hstem : stem.text = .ok start) (hstem' : stem'.text = .ok start') : start ≠ start' := by
  rintro rfl
  cases h with
  | timestamp hm hm' hne =>
    -- Both stems are `rule-` followed by a number, the sign included.
    rw [text, hm] at hstem
    rw [text, hm'] at hstem'
    rw [← hstem'] at hstem
    exact hne (decimalText_injective ((String.append_right_inj _).mp (Except.ok.inj hstem)))
  | unique hne =>
    rw [text, ← hstem', text, Except.ok.injEq, String.append_right_inj, String.ofList_inj] at hstem
    exact hne (Yaml.hexDigits_injective 32 hstem)

/-! ## The rules of the document of a selection -/

/-- A rule without its identifier. -/
def Rule.anonymous (rule : Rule) : Rule := { rule with id := .null }

/-- A document without the identifiers of its rules. -/
def Document.anonymous (d : Document) : Document := { d with rules := d.rules.map Rule.anonymous }

namespace Registry

variable {r : Registry} {s : Selection} {start start' : String}

/-- Rule `k` pairs action `k / m` with resource `k % m`, where `m` is the number of resources. -/
theorem getElem?_rules {k : Nat} {action resource : Value}
    (haction : s.actions[k / s.resources.length]? = some action)
    (hresource : s.resources[k % s.resources.length]? = some resource) :
    (r.document start s).rules[k]? = some {
      id := .text (start ++ "-" ++ decimalText k)
      subject := s.subject.orElse (.text "")
      action
      actionLabel := r.directory.labelOf .action action
      object := resource
      subjectConditions := r.catalog.conditions s.subjectPicks
      objectConditions := r.catalog.conditions s.resourcePicks } := by
  have hpos : 0 < s.resources.length := by
    apply List.length_pos_of_mem
    exact List.mem_of_getElem? hresource
  -- Every action makes a block of pairs, one for each resource.
  rw [document, pairRules, List.getElem?_map, List.getElem?_zipIdx,
    getElem?_flatMap_of_length hpos (fun a => List.length_map _)]
  simp [haction, hresource]

/-- The identifiers of the rules are the stem with the numbers from zero on. -/
theorem ids_document (r : Registry) (start : String) (s : Selection) :
    (r.document start s).rules.map Rule.id =
      (List.range (s.actions.length * s.resources.length)).map fun k : Nat =>
        Value.text (start ++ "-" ++ decimalText k) := by
  rw [← r.length_rules start s, document, pairRules, List.map_map, List.length_map,
    List.length_zipIdx, List.range_eq_range', ← List.zipIdx_map_snd, List.map_map]
  rfl

/-- The identifiers of the rules of a document differ. -/
theorem nodup_ids (r : Registry) (start : String) (s : Selection) :
    ((r.document start s).rules.map Rule.id).Nodup := by
  rw [ids_document]
  refine List.Nodup.map (fun k k' h => ?_) List.nodup_range
  exact (eq_of_hyphen_eq (Value.text.inj h)).2

/-- Documents with different stems have no identifiers of rules in common. -/
theorem disjoint_ids {r' : Registry} {s' : Selection} (hne : start ≠ start') :
    ((r.document start s).rules.map Rule.id).Disjoint
      ((r'.document start' s').rules.map Rule.id) := by
  rw [ids_document, ids_document]
  intro id hid hid'
  obtain ⟨k, -, rfl⟩ := List.mem_map.mp hid
  obtain ⟨k', -, heq⟩ := List.mem_map.mp hid'
  exact hne (eq_of_hyphen_eq (Value.text.inj heq)).1.symm

/-- Only the identifiers of the rules depend on the stem. -/
theorem anonymous_document (r : Registry) (s : Selection) (start start' : String) :
    (r.document start s).anonymous = (r.document start' s).anonymous := by
  -- Without the identifiers the rules do not depend on their numbers either.
  have hrules (start : String) (actions : List LabelledAction) :
      (r.pairRules start s actions).map Rule.anonymous =
        (actions.flatMap fun action => s.resources.map fun resource => (action, resource)).map
          fun pair => {
            id := .null
            subject := s.subject.orElse (.text "")
            action := pair.1.1
            actionLabel := pair.1.2
            object := pair.2
            subjectConditions := r.catalog.conditions s.subjectPicks
            objectConditions := r.catalog.conditions s.resourcePicks } := by
    conv_rhs => rw [← List.zipIdx_map_fst 0 (List.flatMap _ actions)]
    rw [pairRules, List.map_map, List.map_map]
    rfl
  rw [Document.anonymous, Document.anonymous, document, document, hrules, hrules]

end Registry

/-! ## The rules of a compile -/

variable {r : Registry} {s : Selection} {stem : Stem} {start : String}

/-- Compiling a selection makes one rule for each pairing of an action with a resource, in order
and numbered. The identifiers of the rules differ from each other and from those of every compile
with a stem of another time or token, and they are all in which compiles of one selection differ. -/
theorem compile_rules (hs : s.Compilable) (hstem : stem.text = .ok start) :
    ∃ d, r.compile stem s = .ok d ∧
      d.rules.length = s.actions.length * s.resources.length ∧
      (∀ k < s.actions.length * s.resources.length, ∃ action resource label,
        s.actions[k / s.resources.length]? = some action ∧
        s.resources[k % s.resources.length]? = some resource ∧
        r.directory.label .action action = .ok label ∧
        d.rules[k]? = some {
          id := .text (start ++ "-" ++ decimalText k)
          subject := s.subject
          action
          actionLabel := label
          object := resource
          subjectConditions := r.catalog.conditions s.subjectPicks
          objectConditions := r.catalog.conditions s.resourcePicks }) ∧
      (d.rules.map Rule.id).Nodup ∧
      (∀ (r' : Registry) (stem' : Stem) (s' : Selection) (d' : Document),
        r'.compile stem' s' = .ok d' → stem.Apart stem' →
          (d.rules.map Rule.id).Disjoint (d'.rules.map Rule.id)) ∧
      ∀ (stem' : Stem) (d' : Document), r.compile stem' s = .ok d' →
        d'.anonymous = d.anonymous := by
  refine ⟨_, Registry.compile_eq_document hs hstem, r.length_rules start s, fun k hk => ?_,
    r.nodup_ids start s, ?_, ?_⟩
  · -- Both positions are in bounds, because there are resources.
    have hpos : 0 < s.resources.length := Nat.pos_of_lt_mul_left hk
    have haction : k / s.resources.length < s.actions.length :=
      Nat.div_lt_of_lt_mul (Nat.mul_comm s.actions.length _ ▸ hk)
    have hresource : k % s.resources.length < s.resources.length := Nat.mod_lt k hpos
    have hhashable := hs.action_hashable _ (List.getElem_mem haction)
    refine ⟨s.actions[k / s.resources.length], s.resources[k % s.resources.length],
      r.directory.labelOf .action s.actions[k / s.resources.length],
      List.getElem?_eq_getElem haction, List.getElem?_eq_getElem hresource,
      r.directory.label_of_hashable .action hhashable, ?_⟩
    rw [Registry.getElem?_rules (List.getElem?_eq_getElem haction)
      (List.getElem?_eq_getElem hresource), Selection.orElse_subject hs.complete]
  · intro r' stem' s' d' hd' hapart
    obtain ⟨-, start', hstem', rfl⟩ := Registry.compile_eq_ok_iff.mp hd'
    exact Registry.disjoint_ids (hapart.text_ne hstem hstem')
  · intro stem' d' hd'
    obtain ⟨-, start', -, rfl⟩ := Registry.compile_eq_ok_iff.mp hd'
    exact r.anonymous_document s start' start

/-- A selection of one action twice, and of two resources. -/
def repeatedSelection : Selection where
  subject := .text "clerk"
  actions := [.text "read", .text "read"]
  resources := [.text "file", .text "archive"]

/-- Five seconds before and five seconds after the epoch the repeated action makes four rules with
the same contents and different identifiers. -/
theorem compile_rules_repeated :
    repeatedSelection.Compilable ∧
      (Stem.timestamp (.whole (-5))).text = .ok "rule--5000" ∧
      ∃ d d', Registry.compile {} (.timestamp (.whole (-5))) repeatedSelection = .ok d ∧
        Registry.compile {} (.timestamp (.whole 5)) repeatedSelection = .ok d' ∧
        d.rules.length = 4 ∧
        (∃ rule, d.rules[3]? = some rule ∧ rule.id = .text "rule--5000-3" ∧
          rule.action = .text "read" ∧ rule.object = .text "archive") ∧
        (d.rules.map Rule.id).Disjoint (d'.rules.map Rule.id) ∧ d'.anonymous = d.anonymous := by
  have hs : repeatedSelection.Compilable := ⟨rfl, rfl, rfl, by decide⟩
  have hstem : (Stem.timestamp (.whole (-5))).text = .ok "rule--5000" := rfl
  have hstem' : (Stem.timestamp (.whole 5)).text = .ok "rule-5000" := rfl
  have hd' := Registry.compile_eq_document (r := {}) hs hstem'
  obtain ⟨d, hd, hlength, hrules, -, hdisjoint, hanonymous⟩ := compile_rules (r := {}) hs hstem
  refine ⟨hs, hstem, d, _, hd, hd', hlength, ?_, ?_, hanonymous _ _ hd'⟩
  · obtain ⟨action, resource, label, haction, hresource, -, hrule⟩ := hrules 3 (by decide)
    refine ⟨_, hrule, rfl, ?_, ?_⟩
    · exact (Option.some.inj haction).symm
    · exact (Option.some.inj hresource).symm
  · exact hdisjoint _ _ _ _ hd' (.timestamp rfl rfl (by decide))

end PolicyAuthoring
