import PolicyAuthoring.Proofs.CommandLine.Output
import PolicyAuthoring.Proofs.Settled
import PolicyAuthoring.Proofs.Yaml.Construction

/-!
# What is read as a document or a selection

Documents and selections are read from mappings whose fields may hold anything. `Value.IsDocument`
and `Value.IsSelection` say of a mapping, field by field, what must be true for it to be read
(`loadDocument_iff_isDocument`, `loadSelection_iff_isSelection`). Every other mapping is refused
with one of the faults of `Document.Refusal` or `Selection.Refusal`, and a file with such a mapping
is refused with a fault of the file.

A table of picks may be written in two ways, as a mapping or as a sequence of pairs, where
everything with two items is a pair. What has been read is written as a mapping, and then it is read
as itself.
-/

namespace PolicyAuthoring

/-! ## Words -/

/-- A value is read as an effect exactly if it is the word for one. -/
theorem Effect.guarded_ofValue (v : Value) :
    Guarded (ofValue v) (∃ effect : Effect, v = .text effect.word)
      (· = .notAWord v "PolicyEffect") := by
  rw [ofValue.eq_def]
  split
  · exact (Guarded.ok _).congr (iff_of_true trivial ⟨.allow, rfl⟩)
  · exact (Guarded.ok _).congr (iff_of_true trivial ⟨.deny, rfl⟩)
  next hallow hdeny =>
    refine ⟨?_, fun _ => ⟨_, rfl, rfl⟩⟩
    rintro ⟨_ | _, rfl⟩
    exacts [absurd rfl hallow, absurd rfl hdeny]

/-- The effect of a mapping is read exactly if it is the word for one where it is given. -/
theorem Effect.guarded_entry (entries : Table Value) :
    Guarded (ofValue ((Table.lookup entries (.text "effect")).getD (.text allow.word)))
      (∀ w, (Value.mapping entries).field? "effect" = .ok (some w) →
        ∃ effect : Effect, w = .text effect.word)
      fun fault => ∃ w, fault = .notAWord w "PolicyEffect" := by
  refine ((guarded_ofValue _).imp fun _ h => ⟨_, h⟩).congr ?_
  exact Value.forall_field?_iff (P := fun w => ∃ effect : Effect, w = .text effect.word)
    ⟨allow, rfl⟩

/-- A value is read as a status exactly if it is the word for one. -/
theorem Status.guarded_ofValue (v : Value) :
    Guarded (ofValue v) (∃ status : Status, v = .text status.word)
      (· = .notAWord v "PolicyStatus") := by
  rw [ofValue.eq_def]
  split
  · exact (Guarded.ok _).congr (iff_of_true trivial ⟨.active, rfl⟩)
  · exact (Guarded.ok _).congr (iff_of_true trivial ⟨.inactive, rfl⟩)
  · exact (Guarded.ok _).congr (iff_of_true trivial ⟨.draft, rfl⟩)
  next hactive hinactive hdraft =>
    refine ⟨?_, fun _ => ⟨_, rfl, rfl⟩⟩
    rintro ⟨_ | _ | _, rfl⟩
    exacts [absurd rfl hactive, absurd rfl hinactive, absurd rfl hdraft]

/-- The status of a mapping is read exactly if it is the word for one where it is given. -/
theorem Status.guarded_entry (entries : Table Value) :
    Guarded (ofValue ((Table.lookup entries (.text "status")).getD (.text draft.word)))
      (∀ w, (Value.mapping entries).field? "status" = .ok (some w) →
        ∃ status : Status, w = .text status.word)
      fun fault => ∃ w, fault = .notAWord w "PolicyStatus" := by
  refine ((guarded_ofValue _).imp fun _ h => ⟨_, h⟩).congr ?_
  exact Value.forall_field?_iff (P := fun w => ∃ status : Status, w = .text status.word)
    ⟨draft, rfl⟩

/-! ## Documents -/

/-- The faults with which a mapping that is no document is refused. -/
inductive Document.Refusal : ShapeFault → Prop
  /-- Something that should be a mapping is of another kind. -/
  | notAMapping (kind : Value.Kind) : Refusal (.noOperation kind "get")
  /-- Something that should be a list is not made of items. -/
  | notIterable (kind : Value.Kind) : Refusal (.notIterable kind)
  /-- A condition is neither a mapping nor a sequence. -/
  | notSubscriptable (kind : Value.Kind) : Refusal (.notSubscriptable kind)
  /-- A condition is a sequence. -/
  | nameIsNoPosition (kind : Value.Kind) : Refusal (.nameIsNoPosition kind)
  /-- A condition has no name. -/
  | unnamed : Refusal (.missingEntry "name")
  /-- The effect is not the word for one. -/
  | effect (v : Value) : Refusal (.notAWord v "PolicyEffect")
  /-- The status is not the word for one. -/
  | status (v : Value) : Refusal (.notAWord v "PolicyStatus")

/-- What a list of conditions is made of: mappings with names. -/
abbrev Value.IsConditionList : Value → Prop := Value.IsListOf fun x => x.Has "name"

/-- What a rule is made of. -/
structure Value.IsRule (v : Value) : Prop where
  /-- The rule is a mapping. -/
  kind : v.kind = .mapping
  /-- The subject is a mapping, if there is one. -/
  subject : (v.entry "subject").MappingIfPresent
  /-- The action is a mapping, if there is one. -/
  action : (v.entry "action").MappingIfPresent
  /-- The object is a mapping, if there is one. -/
  object : (v.entry "object").MappingIfPresent
  /-- The conditions on the subject are a list of conditions. -/
  subjectConditions : ((v.entry "subject").entry "attributes").IsConditionList
  /-- The conditions on the object are a list of conditions. -/
  objectConditions : ((v.entry "object").entry "attributes").IsConditionList
  /-- The further conditions can be listed. -/
  conditions : (v.entry "conditions").Listable

/-- What an attachment is made of: it is a text, or a mapping with a list of conditions. -/
def Value.IsAttachment (v : Value) : Prop :=
  v.isText = true ∨ v.kind = .mapping ∧ (v.entry "attributes").IsConditionList

/-- What a document is made of. Fields that are not named may hold anything. -/
structure Value.IsDocument (v : Value) : Prop where
  /-- The effect is the word for one, if it is given. -/
  effect : ∀ w, v.field? "effect" = .ok (some w) → ∃ effect : Effect, w = .text effect.word
  /-- The status is the word for one, if it is given. -/
  status : ∀ w, v.field? "status" = .ok (some w) → ∃ status : Status, w = .text status.word
  /-- The subjects can be listed. -/
  subjects : (v.entry "subjects").Listable
  /-- The resources can be listed. -/
  resources : (v.entry "resources").Listable
  /-- The actions can be listed. -/
  actions : (v.entry "actions").Listable
  /-- The rules are a list of rules. -/
  rules : (v.entry "rules").IsListOf Value.IsRule
  /-- The additional resources can be listed. -/
  additionalResources : (v.entry "additionalResources").Listable
  /-- The additional resources are attachments. -/
  attachments : ∀ x ∈ (v.entry "additionalResources").members, x.IsAttachment
  /-- The further conditions can be listed. -/
  conditions : (v.entry "conditions").Listable

section Document

open CommandLine
open Document (Refusal)

variable {v : Value}

/-- A field is looked for in mappings only. -/
theorem guarded_part (v : Value) (name : String) (fallback : Value) :
    Guarded (v.fieldD name fallback) (v.kind = .mapping) Refusal :=
  (v.guarded_fieldD name fallback).imp fun _ hfault => hfault ▸ .notAMapping v.kind

/-- The items of a field that is missing or made of items can be taken. -/
theorem guarded_items (v : Value) : Guarded v.itemsIfPresent v.Listable Refusal :=
  v.guarded_itemsIfPresent_notIterable.imp fun _ hfault => hfault ▸ .notIterable v.kind

/-- A condition is read exactly if it is a mapping with a name. -/
theorem Condition.guarded_ofValue (v : Value) : Guarded (ofValue v) (v.Has "name") Refusal := by
  have hname : Guarded (v.requiredField "name") (v.Has "name") Refusal := by
    refine (v.guarded_requiredField "name").imp fun fault hfault => ?_
    simp only [List.mem_cons, List.not_mem_nil, or_false] at hfault
    rcases hfault with rfl | rfl | rfl
    exacts [.unnamed, .notSubscriptable _, .nameIsNoPosition _]
  refine (hname.bind fun _ _ => (guarded_part v "operator" .null).bind fun _ _ =>
    (guarded_part v "value" .null).bind_ok).congr ?_
  exact ⟨fun h => h.1, fun h => ⟨h, h.kind, h.kind⟩⟩

/-- A list of conditions is read exactly if it is one. -/
theorem Condition.guarded_listOfValue (hv : v.Proper) :
    Guarded (listOfValue v) v.IsConditionList Refusal := by
  refine ((guarded_items v).bind_of_eq Value.itemsIfPresent_eq
    (Guarded.mapM fun x _ => guarded_ofValue x)).congr ?_
  exact hv.isListOf_iff fun _ hx => hx.kind

/-- A rule is read exactly if it is one. -/
theorem Rule.guarded_ofValue (hv : v.Proper) : Guarded (ofValue v) v.IsRule Refusal := by
  cases v with
  | mapping entries =>
    simp only [ofValue, Value.field_mapping, Value.fieldD_mapping, ok_bind]
    -- The conditions are read from the mapping that stands in for a missing part.
    have hconditions (name : String) : Guarded (Condition.listOfValue
        ((((Value.mapping entries).entry name).orElse (.mapping [])).entry "attributes"))
        ((((Value.mapping entries).entry name).entry "attributes").IsConditionList) Refusal := by
      rw [Value.entry_orElse_mapping]
      exact Condition.guarded_listOfValue ((hv.entry name).entry "attributes")
    refine ((guarded_part _ _ _).bind fun _ _ => (guarded_part _ _ _).bind fun _ _ =>
      (guarded_part _ _ _).bind fun _ _ => (guarded_part _ _ _).bind fun _ _ =>
      (guarded_part _ _ _).bind fun _ _ => (guarded_part _ _ _).bind_of_eq Value.field_of_kind
        ((hconditions "subject").bind fun _ _ =>
          (guarded_part _ _ _).bind_of_eq Value.field_of_kind
            ((hconditions "object").bind fun _ _ => (guarded_items _).bind_ok))).congr ?_
    -- Every part is asked for several fields, which demands the same each time.
    simp only [Value.kind_orElse_mapping_iff]
    constructor
    · rintro ⟨hsubject, haction, -, -, hobject, -, hsubjectConditions, -, hobjectConditions,
        hconditions⟩
      exact ⟨rfl, hsubject, haction, hobject, hsubjectConditions, hobjectConditions, hconditions⟩
    · intro h
      exact ⟨h.subject, h.action, h.action, h.action, h.object, h.subject, h.subjectConditions,
        h.object, h.objectConditions, h.conditions⟩
  | _ =>
    refine ⟨fun h => ?_, fun _ => ⟨_, rfl, .notAMapping _⟩⟩
    cases h.kind

/-- An attachment is read exactly if it is one. -/
theorem Attachment.guarded_ofValue (hv : v.Proper) :
    Guarded (ofValue v) v.IsAttachment Refusal := by
  rw [ofValue, Value.IsAttachment]
  cases htext : v.isText with
  | true => exact (Guarded.ok _).congr (iff_of_true trivial (Or.inl rfl))
  | false =>
    rw [if_neg Bool.false_ne_true]
    refine ((guarded_part v "id" _).bind fun _ _ =>
      (guarded_part v "attributes" _).bind_of_eq Value.field_of_kind
        (Condition.guarded_listOfValue (hv.entry "attributes")).bind_ok).congr ?_
    simp

/-- A proper mapping is read as a document exactly if it is one. -/
theorem Document.guarded_ofValue {entries : Table Value} (hv : (Value.mapping entries).Proper) :
    Guarded (ofValue (.mapping entries)) (Value.mapping entries).IsDocument Refusal := by
  simp only [ofValue, Value.field_mapping, Value.fieldD_mapping, ok_bind]
  have heffect := (Effect.guarded_entry entries).imp fun _ hfault =>
    hfault.elim fun w hw => hw ▸ Refusal.effect w
  have hstatus := (Status.guarded_entry entries).imp fun _ hfault =>
    hfault.elim fun w hw => hw ▸ Refusal.status w
  have hmembers {name : String} {x : Value}
      (hx : x ∈ ((Value.mapping entries).entry name).members) : x.Proper :=
    (hv.entry name).of_mem_members hx
  -- One step for each field that can be refused, in the order in which they are read.
  refine (heffect.bind fun _ _ => hstatus.bind fun _ _ => (guarded_items _).bind fun _ _ =>
    (guarded_items _).bind fun _ _ => (guarded_items _).bind fun _ _ =>
    (guarded_items _).bind_of_eq Value.itemsIfPresent_eq
      ((Guarded.mapM fun x hx => Rule.guarded_ofValue (hmembers hx)).bind fun _ _ =>
        (guarded_items _).bind_of_eq Value.itemsIfPresent_eq
          ((Guarded.mapM fun x hx => Attachment.guarded_ofValue (hmembers hx)).bind fun _ _ =>
            (guarded_items _).bind_ok))).congr ?_
  have hrules := (hv.entry "rules").isListOf_iff (P := Value.IsRule) fun _ hx => hx.kind
  constructor
  · rintro ⟨heffect, hstatus, hsubjects, hresources, hactions, hlistable, hmembers, hadditional,
      hattachments, hconditions⟩
    exact ⟨heffect, hstatus, hsubjects, hresources, hactions, hrules.mp ⟨hlistable, hmembers⟩,
      hadditional, hattachments, hconditions⟩
  · intro h
    obtain ⟨hlistable, hmembers⟩ := hrules.mpr h.rules
    exact ⟨h.effect, h.status, h.subjects, h.resources, h.actions, hlistable, hmembers,
      h.additionalResources, h.attachments, h.conditions⟩

/-- A proper mapping is read as a document exactly if it is one, and otherwise refused. So a file
with a mapping is loaded as a document exactly if the mapping is one, and otherwise it is refused
with a fault of the file. -/
theorem loadDocument_iff_isDocument :
    (∀ entries : Table Value, (Value.mapping entries).Proper →
      ((∃ d, Document.ofValue (.mapping entries) = .ok d) ↔
        (Value.mapping entries).IsDocument) ∧
      ∀ fault, Document.ofValue (.mapping entries) = .error fault → Refusal fault) ∧
    ∀ (files : Files) (path : String) (v : Value), files.readMapping path = .ok v →
      (v.IsDocument ∧ ∃ d, files.loadDocument path = .ok d) ∨
      (¬ v.IsDocument ∧ ∃ cause, Refusal cause ∧
        files.loadDocument path = .error (.load (.document path cause))) := by
  constructor
  · intro entries hv
    have hread := Document.guarded_ofValue hv
    exact ⟨hread.exists_ok_iff, fun _ => hread.fault⟩
  · intro files path v hfile
    -- Whatever a file writes is proper.
    obtain ⟨entries, rfl, hv⟩ := Files.exists_mapping_of_readMapping hfile
    have hread := Document.guarded_ofValue hv
    rw [Files.loadDocument, hfile, ok_bind]
    rcases hread.ok_or_error with ⟨hdocument, d, hd⟩ | ⟨hdocument, cause, hrefusal, hcause⟩
    · rw [hd]
      exact Or.inl ⟨hdocument, d, rfl⟩
    · rw [hcause]
      exact Or.inr ⟨hdocument, cause, hrefusal, rfl⟩

/-- A document with one rule, which has one condition on its subject. -/
def ruleWith (condition : Value) : Value :=
  .record ["rules"] [.list [.record ["subject"] [.record ["attributes"] [.list [condition]]]]]

/-- JSON has a form for the document if it has one for the condition. -/
theorem isJson_ruleWith {condition : Value} (h : condition.IsJson) :
    (ruleWith condition).IsJson := by
  have hrecord (name : String) {v : Value} (hv : v.IsJson) : (Value.record [name] [v]).IsJson :=
    .record _ (List.nodup_singleton name) (List.forall_mem_singleton.mpr hv)
  have hlist {v : Value} (hv : v.IsJson) : (Value.list [v]).IsJson :=
    .list _ (List.forall_mem_singleton.mpr hv)
  exact hrecord "rules" (hlist (hrecord "subject" (hrecord "attributes" (hlist h))))

/-- The JSON text of the document with a condition that has a value and no name. -/
def unnamedText : String :=
  "\x7b\n  \"rules\": [\n    \x7b\n      \"subject\": \x7b\n        \"attributes\": [\n" ++
    "          \x7b\n            \"value\": 3\n          \x7d\n        ]\n" ++
    "      \x7d\n    \x7d\n  ]\n\x7d"

/-- A condition has to have a name, and nothing else. -/
theorem loadDocument_iff_isDocument_ruleWith :
    (ruleWith (.record ["name"] [.text "level"])).Proper ∧
      (ruleWith (.record ["name"] [.text "level"])).IsDocument ∧
      (oneFile unnamedText).files.readMapping "policy.json" =
        .ok (ruleWith (.record ["value"] [.int 3])) ∧
      ¬ (ruleWith (.record ["value"] [.int 3])).IsDocument ∧
      ∃ cause, (oneFile unnamedText).files.loadDocument "policy.json" =
        .error (.load (.document "policy.json" cause)) := by
  have hnamed : (Value.record ["name"] [.text "level"]).IsJson :=
    .record _ (by decide) (List.forall_mem_singleton.mpr (.text "level"))
  have hunnamed : (Value.record ["value"] [.int 3]).IsJson :=
    .record _ (by decide) (List.forall_mem_singleton.mpr (.int 3))
  have hfile : (oneFile unnamedText).files.readMapping "policy.json" =
      .ok (ruleWith (.record ["value"] [.int 3])) :=
    readMapping_oneFile ((isJson_ruleWith hunnamed).read_write (by decide +kernel) (by rfl))
  obtain ⟨hread, hload⟩ := loadDocument_iff_isDocument
  have hdocument : ¬ (ruleWith (.record ["value"] [.int 3])).IsDocument := by
    intro h
    obtain ⟨d, hd⟩ := (hread _ (isJson_ruleWith hunnamed).proper).1.mpr h
    cases hd
  refine ⟨(isJson_ruleWith hnamed).proper,
    (hread _ (isJson_ruleWith hnamed).proper).1.mp ⟨_, rfl⟩, hfile, hdocument, ?_⟩
  rcases hload _ _ _ hfile with ⟨h, -⟩ | ⟨-, cause, -, hcause⟩
  · exact absurd h hdocument
  · exact ⟨cause, hcause⟩

end Document

/-! ## Selections -/

/-- The faults with which a mapping that is no selection is refused. -/
inductive Selection.Refusal : ShapeFault → Prop
  /-- Something that should be a list or a table is not made of items. -/
  | notIterable (kind : Value.Kind) : Refusal (.notIterable kind)
  /-- An element of a table is not made of items. -/
  | entryNotSequence (index : Nat) : Refusal (.entryNotSequence index)
  /-- An element of a table has not two items. -/
  | entryLength (index length : Nat) : Refusal (.entryLength index length)
  /-- The first item of an element of a table cannot be a key. -/
  | unhashable (kind : Value.Kind) : Refusal (.unhashable kind)
  /-- The effect is not the word for one. -/
  | effect (v : Value) : Refusal (.notAWord v "PolicyEffect")
  /-- The status is not the word for one. -/
  | status (v : Value) : Refusal (.notAWord v "PolicyStatus")

namespace Value

/-- A value made of two items, of which the first one can be a key. -/
def IsPair (v : Value) : Prop := ∃ key value, v.items? = some [key, value] ∧ key.hashable = true

/-- A value that counts as missing, is a mapping, or is made of pairs. -/
def IsTable (v : Value) : Prop :=
  v.truthy = true → v.kind = .mapping ∨ (v.items?.isSome = true ∧ ∀ x ∈ v.members, x.IsPair)

/-- The fields of a selection that hold the tables of its picks. -/
def tableFields : List String :=
  ["subjectAttributes", "subjectOperators", "resourceAttributes", "resourceOperators",
    "additionalResourceAttributes", "additionalResourceOperators"]

/-- What a selection is made of. Fields that are not named may hold anything. -/
structure IsSelection (v : Value) : Prop where
  /-- The effect is the word for one, if it is given. -/
  effect : ∀ w, v.field? "effect" = .ok (some w) → ∃ effect : Effect, w = .text effect.word
  /-- The status is the word for one, if it is given. -/
  status : ∀ w, v.field? "status" = .ok (some w) → ∃ status : Status, w = .text status.word
  /-- The actions can be listed. -/
  actions : (v.entry "actions").Listable
  /-- The resources can be listed. -/
  resources : (v.entry "resources").Listable
  /-- The additional resources can be listed. -/
  additionalResources : (v.entry "additionalResources").Listable
  /-- The tables of the picks are tables. -/
  tables : ∀ name ∈ tableFields, (v.entry name).IsTable

end Value

section Selection

open CommandLine
open Selection (Refusal)

/-- Elements are read as the entries of a table exactly if they are pairs. -/
theorem guarded_entriesOfPairs (table : Table Value) (index : Nat) (elements : List Value) :
    Guarded (Value.entriesOfPairs table index elements) (∀ x ∈ elements, x.IsPair) Refusal := by
  -- Whatever has been read so far, an element is put into the table exactly if it is a pair.
  induction elements generalizing table index with
  | nil => exact (Guarded.ok table).congr (by simp)
  | cons element elements ih =>
    rw [Value.entriesOfPairs.eq_def, List.forall_mem_cons, Value.IsPair]
    dsimp only
    split
    next hnone =>
      refine ⟨?_, fun _ => ⟨_, rfl, .entryNotSequence index⟩⟩
      rintro ⟨⟨key, value, hitems, -⟩, -⟩
      rw [hnone] at hitems
      cases hitems
    next key value hitems =>
      have hkey : Guarded key.asKey (key.hashable = true) Refusal :=
        key.guarded_asKey_unhashable.imp fun _ ⟨kind, hfault⟩ => hfault ▸ .unhashable kind
      refine (hkey.bind fun _ _ => ih _ _).congr (and_congr_left fun _ => ?_)
      simp [hitems]
    next items hne hitems =>
      refine ⟨?_, fun _ => ⟨_, rfl, .entryLength index items.length⟩⟩
      rintro ⟨⟨key, value, hpair, -⟩, -⟩
      rw [hitems, Option.some.injEq] at hpair
      exact absurd hpair (hne key value)

/-- A field is read as a table exactly if it is one. -/
theorem guarded_entriesIfPresent (v : Value) :
    Guarded v.entriesIfPresent v.IsTable Refusal := by
  rw [Value.entriesIfPresent, Value.IsTable]
  cases v.truthy with
  | false => exact (Guarded.ok _).congr (by simp)
  | true =>
    rw [if_pos rfl]
    -- Only a mapping is not read element by element.
    have hpairs : Guarded (v.items >>= Value.entriesOfPairs [] 0)
        (v.items?.isSome = true ∧ ∀ x ∈ v.members, x.IsPair) Refusal := by
      rw [Value.items, Value.members]
      cases v.items? with
      | none =>
        exact ⟨fun h => absurd h.1 Bool.false_ne_true, fun _ => ⟨_, rfl, .notIterable v.kind⟩⟩
      | some items => exact (guarded_entriesOfPairs [] 0 items).congr (by simp)
    cases v with
    | mapping entries => exact (Guarded.ok _).congr (by simp [Value.kind])
    | _ => exact hpairs.congr (by simp [Value.kind])

/-- The picks of a side are read exactly if both fields are tables. -/
theorem Picks.guarded_ofFields (entries : Table Value) (values operators : String) :
    Guarded (ofFields (.mapping entries) values operators)
      (((Value.mapping entries).entry values).IsTable ∧
        ((Value.mapping entries).entry operators).IsTable) Refusal :=
  (guarded_entriesIfPresent _).bind fun _ _ => (guarded_entriesIfPresent _).bind_ok

/-- A mapping is read as a selection exactly if it is one. -/
theorem Selection.guarded_ofValue (entries : Table Value) :
    Guarded (ofValue (.mapping entries)) (Value.mapping entries).IsSelection Refusal := by
  simp only [ofValue, Value.field_mapping, Value.fieldD_mapping, ok_bind]
  have heffect := (Effect.guarded_entry entries).imp fun _ hfault =>
    hfault.elim fun w hw => hw ▸ Refusal.effect w
  have hstatus := (Status.guarded_entry entries).imp fun _ hfault =>
    hfault.elim fun w hw => hw ▸ Refusal.status w
  have hitems (v : Value) : Guarded v.itemsIfPresent v.Listable Refusal :=
    v.guarded_itemsIfPresent_notIterable.imp fun _ hfault => hfault ▸ .notIterable v.kind
  have hpicks := Picks.guarded_ofFields entries
  refine (heffect.bind fun _ _ => hstatus.bind fun _ _ => (hitems _).bind fun _ _ =>
    (hitems _).bind fun _ _ => (hpicks _ _).bind fun _ _ => (hpicks _ _).bind fun _ _ =>
    (hitems _).bind fun _ _ => (hpicks _ _).bind_ok).congr ?_
  have htables : (∀ name ∈ Value.tableFields, ((Value.mapping entries).entry name).IsTable) ↔
      (((Value.mapping entries).entry "subjectAttributes").IsTable ∧
        ((Value.mapping entries).entry "subjectOperators").IsTable) ∧
      (((Value.mapping entries).entry "resourceAttributes").IsTable ∧
        ((Value.mapping entries).entry "resourceOperators").IsTable) ∧
      ((Value.mapping entries).entry "additionalResourceAttributes").IsTable ∧
        ((Value.mapping entries).entry "additionalResourceOperators").IsTable := by
    simp [Value.tableFields, and_assoc]
  constructor
  · rintro ⟨heffect, hstatus, hactions, hresources, hsubject, hresource, hadditional, hadditionals⟩
    exact ⟨heffect, hstatus, hactions, hresources, hadditional,
      htables.mpr ⟨hsubject, hresource, hadditionals⟩⟩
  · intro h
    obtain ⟨hsubject, hresource, hadditionals⟩ := htables.mp h.tables
    exact ⟨h.effect, h.status, h.actions, h.resources, hsubject, hresource,
      h.additionalResources, hadditionals⟩

/-- What is read as a selection has its name and description filled in. -/
theorem Selection.reread_of_ofValue {v : Value} {s : Selection} (h : ofValue v = .ok s) :
    s.reread = s := by
  rw [ofValue] at h
  repeat obtain ⟨_, -, h⟩ := exists_of_bind_eq_ok h
  cases h
  -- A text has been filled in where it was missing, and filling it in again changes nothing.
  simp only [reread, Value.orElse_orElse]

/-- A mapping is read as a selection exactly if it is one, and otherwise refused; what is read is
written as a mapping that is read as the same selection. So a file with a mapping is loaded as a
selection exactly if the mapping is one, and otherwise it is refused with a fault of the file. -/
theorem loadSelection_iff_isSelection :
    (∀ entries : Table Value,
      ((∃ s, Selection.ofValue (.mapping entries) = .ok s) ↔
        (Value.mapping entries).IsSelection) ∧
      (∀ fault, Selection.ofValue (.mapping entries) = .error fault → Refusal fault) ∧
      ∀ s, Selection.ofValue (.mapping entries) = .ok s → Selection.ofValue s.toValue = .ok s) ∧
    ∀ (files : Files) (path : String) (v : Value), files.readMapping path = .ok v →
      (v.IsSelection ∧ ∃ s, files.loadSelection path = .ok s) ∨
      (¬ v.IsSelection ∧ ∃ cause, Refusal cause ∧
        files.loadSelection path = .error (.load (.selection path cause))) := by
  constructor
  · intro entries
    have hread := Selection.guarded_ofValue entries
    refine ⟨hread.exists_ok_iff, fun _ => hread.fault, fun s hs => ?_⟩
    rw [s.ofValue_toValue, Selection.reread_of_ofValue hs]
  · intro files path v hfile
    obtain ⟨entries, rfl, -⟩ := Files.exists_mapping_of_readMapping hfile
    have hread := Selection.guarded_ofValue entries
    rw [Files.loadSelection, hfile, ok_bind]
    rcases hread.ok_or_error with ⟨hselection, s, hs⟩ | ⟨hselection, cause, hrefusal, hcause⟩
    · rw [hs]
      exact Or.inl ⟨hselection, s, rfl⟩
    · rw [hcause]
      exact Or.inr ⟨hselection, cause, hrefusal, rfl⟩

/-- A selection with elements for the table of values on the subject. -/
def pickedPairs (elements : List Value) : Value :=
  .record ["subjectAttributes"] [.list elements]

/-- The JSON text of the selection with a text of two characters for a pair. -/
def pairText : String := "\x7b\n  \"subjectAttributes\": [\n    \"ab\"\n  ]\n\x7d"

/-- A text of two characters is a pair, and one of three is none. -/
theorem loadSelection_iff_isSelection_pairs :
    (oneFile pairText).files.readMapping "policy.json" = .ok (pickedPairs [.text "ab"]) ∧
      (pickedPairs [.text "ab"]).IsSelection ∧
      (∃ s, (oneFile pairText).files.loadSelection "policy.json" = .ok s) ∧
      (∃ s, Selection.ofValue (pickedPairs [.text "ab"]) = .ok s ∧
        s.subjectPicks.values = [(.text "a", .text "b")] ∧ Selection.ofValue s.toValue = .ok s) ∧
      Selection.ofValue (pickedPairs [.text "abc"]) = .error (.entryLength 0 3) ∧
      Refusal (.entryLength 0 3) ∧ ¬ (pickedPairs [.text "abc"]).IsSelection := by
  have hjson : (pickedPairs [.text "ab"]).IsJson :=
    .record _ (by decide) (List.forall_mem_singleton.mpr
      (.list _ (List.forall_mem_singleton.mpr (.text "ab"))))
  have hfile : (oneFile pairText).files.readMapping "policy.json" =
      .ok (pickedPairs [.text "ab"]) :=
    readMapping_oneFile (hjson.read_write (by decide +kernel) (by rfl))
  obtain ⟨hread, hload⟩ := loadSelection_iff_isSelection
  obtain ⟨hpair, -, hreread⟩ :=
    hread (Value.recordEntries ["subjectAttributes"] [.list [.text "ab"]])
  obtain ⟨hlonger, hrefusal, -⟩ :=
    hread (Value.recordEntries ["subjectAttributes"] [.list [.text "abc"]])
  have hselection : (pickedPairs [.text "ab"]).IsSelection := hpair.mp ⟨_, rfl⟩
  have hno : ¬ (pickedPairs [.text "abc"]).IsSelection := by
    intro h
    obtain ⟨s, hs⟩ := hlonger.mpr h
    cases hs
  refine ⟨hfile, hselection, ?_, ⟨_, rfl, rfl, hreread _ rfl⟩, rfl, hrefusal _ rfl, hno⟩
  rcases hload _ _ _ hfile with ⟨-, hs⟩ | ⟨h, -⟩
  · exact hs
  · exact absurd hselection h

end Selection

end PolicyAuthoring
