import PolicyAuthoring.Proofs.RoundTrip
import PolicyAuthoring.Proofs.Rereading

/-!
# What has been read once

Reading a document fills in what counts as missing: a description or an operator becomes the empty
text, and the label of an action becomes its name. A document in which nothing is left to be filled
in is `Settled`. Documents that have been read are settled (`settled_of_ofValue`), and so are
documents that have been compiled (`settled_document`), since the only label that counts as missing
is that of an action that counts as missing itself. A settled document is read again as itself, but
for the tuples that its conditions compare with, which are stored as lists (`reread_eq_plain`,
`ofValue_toValue_plain`).

Reading a selection fills in the name and the description. The description of a reopened document
has been filled in before, but its name has not: a document may be named by a value that counts as
missing, and then the selection is not read again as itself (`ofValue_toValue_reopened`).
-/

namespace PolicyAuthoring

/-! ## Tuples as lists -/

/-- A condition with a list in place of a tuple. -/
def Condition.plain (x : Condition) : Condition := { x with value := plainValue x.value }

/-- A rule with lists in place of the tuples that conditions compare with. -/
def Rule.plain (rule : Rule) : Rule :=
  { rule with
    subjectConditions := rule.subjectConditions.map Condition.plain
    objectConditions := rule.objectConditions.map Condition.plain }

/-- An attachment with lists in place of the tuples that conditions compare with. -/
def Attachment.plain (a : Attachment) : Attachment :=
  { a with conditions := a.conditions.map Condition.plain }

/-- A document with lists in place of the tuples that conditions compare with. -/
def Document.plain (d : Document) : Document :=
  { d with
    rules := d.rules.map Rule.plain
    additionalResources := d.additionalResources.map Attachment.plain }

/-- Conditions are stored with lists in place of tuples. -/
theorem Condition.listToValue_plain (conditions : List Condition) :
    listToValue (conditions.map plain) = listToValue conditions := by
  have hvalue (v : Value) : plainValue (plainValue v) = plainValue v := by
    cases v <;> rfl
  simp [listToValue, toValue, plain, hvalue, Function.comp_def]

/-- A document is stored with lists in place of tuples. -/
theorem Document.toValue_plain (d : Document) : d.plain.toValue = d.toValue := by
  simp [plain, toValue, Rule.plain, Rule.toValue, Attachment.plain, Attachment.toValue,
    Condition.listToValue_plain, Function.comp_def]

/-! ## Settled documents -/

/-- The operator of a condition has been filled in. -/
def Condition.Settled (x : Condition) : Prop := x.operator.orElse (.text "") = x.operator

/-- The label of a rule and the operators of its conditions have been filled in. -/
structure Rule.Settled (rule : Rule) : Prop where
  /-- The label of the action counts as missing only if it is the name of the action. -/
  label : rule.actionLabel.orElse rule.action = rule.actionLabel
  /-- The conditions on the subject are settled. -/
  subjectConditions : ∀ x ∈ rule.subjectConditions, x.Settled
  /-- The conditions on the object are settled. -/
  objectConditions : ∀ x ∈ rule.objectConditions, x.Settled

/-- The description of a document, its labels and its operators have been filled in. -/
structure Document.Settled (d : Document) : Prop where
  /-- The description counts as missing only if it is the empty text. -/
  description : d.description.orElse (.text "") = d.description
  /-- The rules are settled. -/
  rules : ∀ rule ∈ d.rules, rule.Settled
  /-- The conditions of the attachments are settled. -/
  additionalResources : ∀ a ∈ d.additionalResources, ∀ x ∈ a.conditions, x.Settled

/-- Settled conditions are read again as themselves, but for tuples. -/
theorem Condition.map_reread_eq_map_plain {conditions : List Condition}
    (h : ∀ x ∈ conditions, x.Settled) : conditions.map reread = conditions.map plain := by
  refine List.map_congr_left fun x hx => ?_
  rw [reread, plain, h x hx]

/-- A settled document is read again as itself, but for tuples. -/
theorem Document.Settled.reread_eq_plain {d : Document} (h : d.Settled) : d.reread = d.plain := by
  have hrules : d.rules.map Rule.reread = d.rules.map Rule.plain := by
    refine List.map_congr_left fun rule hrule => ?_
    have hsettled := h.rules rule hrule
    rw [Rule.reread, Rule.plain, hsettled.label,
      Condition.map_reread_eq_map_plain hsettled.subjectConditions,
      Condition.map_reread_eq_map_plain hsettled.objectConditions]
  have hattachments :
      d.additionalResources.map Attachment.reread = d.additionalResources.map Attachment.plain := by
    refine List.map_congr_left fun a ha => ?_
    rw [Attachment.reread, Attachment.plain,
      Condition.map_reread_eq_map_plain (h.additionalResources a ha)]
  rw [reread, plain, h.description, hrules, hattachments]

/-! ## Documents that have been read -/

variable {v : Value}

/-- A condition that has been read is settled. -/
theorem Condition.settled_of_ofValue {x : Condition} (h : ofValue v = .ok x) : x.Settled := by
  obtain ⟨name, -, h⟩ := exists_of_bind_eq_ok h
  obtain ⟨operator, -, h⟩ := exists_of_bind_eq_ok h
  obtain ⟨value, -, h⟩ := exists_of_bind_eq_ok h
  cases h
  exact Value.orElse_orElse operator (.text "")

/-- Conditions that have been read are settled. -/
theorem Condition.settled_of_listOfValue {conditions : List Condition}
    (h : listOfValue v = .ok conditions) : ∀ x ∈ conditions, x.Settled := by
  obtain ⟨items, -, h⟩ := exists_of_bind_eq_ok h
  intro x hx
  obtain ⟨item, -, hitem⟩ := exists_of_mem_of_mapM_eq_ok h x hx
  exact settled_of_ofValue hitem

/-- A rule that has been read is settled. -/
theorem Rule.settled_of_ofValue {rule : Rule} (h : ofValue v = .ok rule) : rule.Settled := by
  obtain ⟨subject, -, h⟩ := exists_of_bind_eq_ok h
  obtain ⟨action, -, h⟩ := exists_of_bind_eq_ok h
  obtain ⟨object, -, h⟩ := exists_of_bind_eq_ok h
  obtain ⟨id, -, h⟩ := exists_of_bind_eq_ok h
  obtain ⟨subjectType, -, h⟩ := exists_of_bind_eq_ok h
  obtain ⟨name, hname, h⟩ := exists_of_bind_eq_ok h
  obtain ⟨displayName, -, h⟩ := exists_of_bind_eq_ok h
  obtain ⟨fallback, hfallback, h⟩ := exists_of_bind_eq_ok h
  obtain ⟨objectType, -, h⟩ := exists_of_bind_eq_ok h
  obtain ⟨subjectAttributes, -, h⟩ := exists_of_bind_eq_ok h
  obtain ⟨subjectConditions, hsubject, h⟩ := exists_of_bind_eq_ok h
  obtain ⟨objectAttributes, -, h⟩ := exists_of_bind_eq_ok h
  obtain ⟨objectConditions, hobject, h⟩ := exists_of_bind_eq_ok h
  obtain ⟨conditions, -, h⟩ := exists_of_bind_eq_ok h
  obtain ⟨items, -, h⟩ := exists_of_bind_eq_ok h
  cases h
  -- The label falls back to the name of the action, which is read twice.
  rw [hname, Except.ok.injEq] at hfallback
  subst hfallback
  exact ⟨Value.orElse_orElse displayName name, Condition.settled_of_listOfValue hsubject,
    Condition.settled_of_listOfValue hobject⟩

/-- The conditions of an attachment that has been read are settled. -/
theorem Attachment.settled_of_ofValue {a : Attachment} (h : ofValue v = .ok a) :
    ∀ x ∈ a.conditions, x.Settled := by
  rw [ofValue] at h
  split at h
  · -- An identifier alone comes without conditions.
    cases h
    simp
  · obtain ⟨id, -, h⟩ := exists_of_bind_eq_ok h
    obtain ⟨attributes, -, h⟩ := exists_of_bind_eq_ok h
    obtain ⟨conditions, hconditions, h⟩ := exists_of_bind_eq_ok h
    cases h
    exact Condition.settled_of_listOfValue hconditions

/-- A document that has been read is settled, and it has the name that its mapping gives. -/
theorem Document.settled_of_ofValue {d : Document} (h : ofValue v = .ok d) :
    d.Settled ∧ v.fieldD "name" (.text "") = .ok d.name := by
  obtain ⟨name, hname, h⟩ := exists_of_bind_eq_ok h
  obtain ⟨description, -, h⟩ := exists_of_bind_eq_ok h
  obtain ⟨effectWord, -, h⟩ := exists_of_bind_eq_ok h
  obtain ⟨effect, -, h⟩ := exists_of_bind_eq_ok h
  obtain ⟨statusWord, -, h⟩ := exists_of_bind_eq_ok h
  obtain ⟨status, -, h⟩ := exists_of_bind_eq_ok h
  obtain ⟨subjectsField, -, h⟩ := exists_of_bind_eq_ok h
  obtain ⟨subjects, -, h⟩ := exists_of_bind_eq_ok h
  obtain ⟨resourcesField, -, h⟩ := exists_of_bind_eq_ok h
  obtain ⟨resources, -, h⟩ := exists_of_bind_eq_ok h
  obtain ⟨actionsField, -, h⟩ := exists_of_bind_eq_ok h
  obtain ⟨actions, -, h⟩ := exists_of_bind_eq_ok h
  obtain ⟨rulesField, -, h⟩ := exists_of_bind_eq_ok h
  obtain ⟨ruleItems, -, h⟩ := exists_of_bind_eq_ok h
  obtain ⟨rules, hrules, h⟩ := exists_of_bind_eq_ok h
  obtain ⟨attachmentsField, -, h⟩ := exists_of_bind_eq_ok h
  obtain ⟨attachmentItems, -, h⟩ := exists_of_bind_eq_ok h
  obtain ⟨attachments, hattachments, h⟩ := exists_of_bind_eq_ok h
  obtain ⟨conditionsField, -, h⟩ := exists_of_bind_eq_ok h
  obtain ⟨conditions, -, h⟩ := exists_of_bind_eq_ok h
  cases h
  -- The name is the only text that is kept as it is read.
  refine ⟨⟨Value.orElse_orElse description (.text ""), fun rule hrule => ?_, fun a ha => ?_⟩, hname⟩
  · obtain ⟨item, -, hitem⟩ := exists_of_mem_of_mapM_eq_ok hrules rule hrule
    exact Rule.settled_of_ofValue hitem
  · obtain ⟨item, -, hitem⟩ := exists_of_mem_of_mapM_eq_ok hattachments a ha
    exact Attachment.settled_of_ofValue hitem

/-! ## Documents that have been compiled -/

variable {r : Registry} {s : Selection} {stem : Stem} {start : String}

/-- In a directory that is made of references the label of a text counts as missing only if it is
the text. -/
theorem Directory.orElse_labelOf {d : Directory} {kind : Reference.Kind} {id : Value}
    (hd : ∃ references, d.table kind = index references) (hid : id.isText = true) :
    (d.labelOf kind id).orElse id = d.labelOf kind id := by
  obtain ⟨references, hd⟩ := hd
  rw [labelOf, get?, Table.lookup, hd]
  cases hfind : (index references).find? fun entry => entry.1.same id with
  | none => simp
  | some entry =>
    -- The reference that is found has the text for its identifier, and its label falls back to it.
    have hkey : entry.1 = id := by
      have hfound := List.find?_some hfind
      exact (Value.same_iff_of_isText_right hid).mp hfound
    obtain ⟨_, hmem, hsame, hreference⟩ :=
      Table.exists_of_mem_ofEntries (List.mem_of_find?_eq_some hfind)
    obtain ⟨reference, -, rfl⟩ := List.mem_map.mp hmem
    rw [hkey, Value.same_iff_of_isText hid] at hsame
    simp only [Option.map_some, Option.getD_some, hreference, Reference.label]
    rw [hsame, Value.orElse_assoc, Value.orElse_orElse]

/-- The conditions that picks make are settled. -/
theorem Catalog.settled_conditions (c : Catalog) (picks : Picks) :
    ∀ x ∈ c.conditions picks, x.Settled := by
  intro x hx
  obtain ⟨clause, -, rfl⟩ := List.mem_map.mp hx
  exact Value.orElse_of_truthy (Operator.truthy_word clause.operator) (.text "")

/-- The document of a selection with texts for actions is settled, if the labels come from a list of
references. -/
theorem Registry.settled_document (hs : s.Compilable)
    (hactions : ∀ action ∈ s.actions, action.isText = true)
    (hdirectory : ∃ references, r.directory.actions = Directory.index references) :
    (r.document start s).Settled := by
  have hconditions := r.catalog.settled_conditions
  refine ⟨Value.orElse_stripped hs.description_text, fun rule hrule => ?_, fun a ha => ?_⟩
  · obtain ⟨action, haction, resource, -, k, rfl⟩ := exists_of_mem_rules hrule
    exact ⟨Directory.orElse_labelOf hdirectory (hactions action haction), hconditions _,
      hconditions _⟩
  · obtain ⟨id, -, rfl⟩ := List.mem_map.mp ha
    exact hconditions _

/-- Documents that have been read and documents that have been compiled are read again as
themselves, but for the tuples that conditions compare with, which become lists; and what is read
again is stored as it was. -/
theorem ofValue_toValue_plain :
    (∀ (v : Value) (d : Document), Document.ofValue v = .ok d →
      ∃ d', Document.ofValue d.toValue = .ok d' ∧ d' = d.plain ∧ d'.toValue = d.toValue) ∧
    ∀ (r : Registry) (stem : Stem) (s : Selection) (d : Document),
      (∀ action ∈ s.actions, action.isText = true) →
      (∃ references, r.directory.actions = Directory.index references) →
      r.compile stem s = .ok d → Document.ofValue d.toValue = .ok d.plain := by
  constructor
  · intro v d hd
    have hsettled := (Document.settled_of_ofValue hd).1
    refine ⟨d.plain, ?_, rfl, d.toValue_plain⟩
    rw [Document.ofValue_toValue, hsettled.reread_eq_plain]
  · intro r stem s d hactions hdirectory hd
    obtain ⟨hs, start, -, rfl⟩ := Registry.compile_eq_ok_iff.mp hd
    have hsettled : (r.document start s).Settled :=
      Registry.settled_document hs hactions hdirectory
    rw [Document.ofValue_toValue, hsettled.reread_eq_plain]

/-- The mapping of a document in which the description counts as missing, a condition has no
operator and compares with a tuple, and the only attachment is written as an identifier alone. -/
def archiveDocument (name : Value) : Value := .mapping [
  (.text "name", name),
  (.text "description", .null),
  (.text "subjects", .list [.text "clerk"]),
  (.text "actions", .list [.text "read"]),
  (.text "resources", .list [.text "file"]),
  (.text "rules", .list [.mapping [
    (.text "subject", .mapping [
      (.text "type", .text "clerk"),
      (.text "attributes", .list [.mapping [
        (.text "name", .text "level"),
        (.text "value", .tuple [.int 2, .int 3])]])]),
    (.text "action", .mapping [(.text "name", .text "read")]),
    (.text "object", .mapping [(.text "type", .text "file")])]]),
  (.text "additionalResources", .list [.text "archive"])]

/-- Reading, which has a label, and writing, which has none. -/
def readAndWrite : List Reference :=
  [{ id := .text "read", name := .text "Read" }, { id := .text "write" }]

/-- The levels, with the labels of reading and writing. -/
def labelledLevels : Registry where
  catalog := levels
  directory := { actions := Directory.index readAndWrite }

/-- The archive is read again with a list for its tuple, and the document of the levels is read
again as well. -/
theorem ofValue_toValue_plain_archive :
    (∃ d d', Document.ofValue (archiveDocument .null) = .ok d ∧
      Document.ofValue d.toValue = .ok d' ∧ d' = d.plain ∧ d'.toValue = d.toValue) ∧
    (∀ action ∈ levelSelection.actions, action.isText = true) ∧
    (∃ references, labelledLevels.directory.actions = Directory.index references) ∧
    ∃ d, labelledLevels.compile (.unique 7) levelSelection = .ok d ∧
      Document.ofValue d.toValue = .ok d.plain := by
  have hread : Document.ofValue (archiveDocument .null) = .ok _ := rfl
  obtain ⟨d', hd'⟩ := ofValue_toValue_plain.1 _ _ hread
  have hactions : ∀ action ∈ levelSelection.actions, action.isText = true := by decide
  have hdirectory : ∃ references, labelledLevels.directory.actions = Directory.index references :=
    ⟨readAndWrite, rfl⟩
  have hcompile : labelledLevels.compile (.unique 7) levelSelection = .ok _ :=
    Registry.compile_eq_document levelSelection_spec.1 rfl
  exact ⟨⟨_, d', hread, hd'⟩, hactions, hdirectory, _, hcompile,
    ofValue_toValue_plain.2 _ _ _ _ hactions hdirectory hcompile⟩

/-! ## Selections -/

namespace Selection

/-- A selection as it is read again. -/
def reread (s : Selection) : Selection :=
  { s with
    name := s.name.orElse (.text "")
    description := s.description.orElse (.text "") }

/-- A selection is read again. -/
theorem ofValue_toValue (s : Selection) : ofValue s.toValue = .ok s.reread := by
  simp only [toValue, entries, ofValue, Picks.ofFields, Value.field, Value.fieldD_cons_self,
    Value.fieldD_cons_of_ne, ne_eq, String.reduceEq, not_false_eq_true, ok_bind,
    Effect.ofValue_word, Status.ofValue_word, Value.itemsIfPresent_list,
    Value.entriesIfPresent_mapping]
  rfl

/-- A selection is equal to itself. -/
theorem same_self (s : Selection) : s.same s = true := by
  simp [same, Picks.same, Value.same_self, Value.sameItems_self]

/-- Reading a selection again gives an equal one exactly if neither name nor description is filled
in. -/
theorem same_reread_iff :
    s.reread.same s = true ↔
      s.name.orElse (.text "") = s.name ∧ s.description.orElse (.text "") = s.description := by
  -- What is filled in is the empty text, to which nothing else is equal.
  have hfill (v : Value) : (v.orElse (.text "")).same v = true ↔ v.orElse (.text "") = v := by
    rcases v.orElse_eq (.text "") with h | h
    · simp [h, Value.same_self]
    · rw [h]
      exact Value.same_iff_of_isText rfl
  constructor
  · intro h
    simp only [same, Bool.and_eq_true, and_assoc] at h
    exact ⟨(hfill s.name).mp h.1, (hfill s.description).mp h.2.1⟩
  · rintro ⟨hname, hdescription⟩
    rw [reread, hname, hdescription]
    exact s.same_self

end Selection

/-- The selection that comes of reopening a document is read again as an equal one exactly if the
name of the document does not count as missing or is the empty text: of everything in the selection,
only the name can change. -/
theorem ofValue_toValue_reopened {c : Catalog} {d : Document} (hd : Document.ofValue v = .ok d)
    (hs : c.hydrate d = .ok s) :
    ∃ name t, v.fieldD "name" (.text "") = .ok name ∧ Selection.ofValue s.toValue = .ok t ∧
      t = { s with name := name.orElse (.text "") } ∧
      (t.same s = true ↔ name.truthy = true ∨ name = .text "") := by
  obtain ⟨hsettled, hname⟩ := Document.settled_of_ofValue hd
  obtain ⟨hsname, hsdescription⟩ := Catalog.texts_of_hydrate hs
  -- The description was filled in when the document was read, the name was not.
  have hdescription : s.description.orElse (.text "") = s.description := by
    rw [hsdescription, hsettled.description]
  have hmissing (name : Value) :
      name.orElse (.text "") = name ↔ name.truthy = true ∨ name = .text "" := by
    by_cases h : name.truthy = true <;> simp [Value.orElse, h, eq_comm]
  refine ⟨d.name, s.reread, hname, s.ofValue_toValue, ?_, ?_⟩
  · rw [Selection.reread, hdescription, hsname]
  · rw [Selection.same_reread_iff, hsname, hmissing]
    simp [hdescription]

/-- A document that is named is reopened as a selection that is read again as an equal one. -/
theorem ofValue_toValue_reopened_archive :
    ∃ d s t, Document.ofValue (archiveDocument (.text "Archive")) = .ok d ∧
      levels.hydrate d = .ok s ∧ Selection.ofValue s.toValue = .ok t ∧ t.same s = true := by
  obtain ⟨d, s, hd, hs⟩ : ∃ d s, Document.ofValue (archiveDocument (.text "Archive")) = .ok d ∧
      levels.hydrate d = .ok s := ⟨_, _, rfl, rfl⟩
  obtain ⟨name, t, hname, ht, -, hsame⟩ := ofValue_toValue_reopened hd hs
  cases hname
  exact ⟨d, s, t, hd, hs, ht, hsame.mpr (Or.inl rfl)⟩

/-- A document that is not is reopened as a selection whose name becomes the empty text when it is
read again. -/
theorem not_same_reopened_unnamed :
    ∃ d s t, Document.ofValue (archiveDocument .null) = .ok d ∧ levels.hydrate d = .ok s ∧
      Selection.ofValue s.toValue = .ok t ∧ s.name = .null ∧ t.name = .text "" ∧
      t.same s = false := by
  obtain ⟨d, s, hd, hs⟩ : ∃ d s, Document.ofValue (archiveDocument .null) = .ok d ∧
      levels.hydrate d = .ok s := ⟨_, _, rfl, rfl⟩
  obtain ⟨-, hname⟩ := Document.settled_of_ofValue hd
  have hnull : s.name = .null := by
    rw [(Catalog.texts_of_hydrate hs).1]
    exact (Except.ok.inj hname).symm
  refine ⟨d, s, s.reread, hd, hs, s.ofValue_toValue, hnull, ?_, ?_⟩
  · rw [Selection.reread, hnull]
    rfl
  · rw [← Bool.not_eq_true, Selection.same_reread_iff, hnull]
    simp [Value.orElse, Value.truthy]

end PolicyAuthoring
