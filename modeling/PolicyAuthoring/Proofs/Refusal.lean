import PolicyAuthoring.Proofs.Reopening

/-!
# What compiling refuses

A selection that lacks a part is refused for exactly the parts that it lacks. Every other selection
from an author is compiled, unless the clock reads a time so late that its milliseconds overflow,
and the rules of a selection that lacks nothing are never empty, so that it is not refused for want
of rules either (`Registry.rules_ne_nil_of_eq_ok`). What was compiled lacks nothing after it was
reopened. It can be reopened with a catalog whose identifiers and names are texts exactly if the
names in its conditions can be keys, which fails only if they come from a catalog with other names
(`Catalog.HasTextKeys.canReopen_iff`).

`compile_refuses_iff` brings this together. `not_forall_compile_and_hydrate` shows the two ways in
which a selection that lacks nothing may still lead to a fault.
-/

namespace PolicyAuthoring

/-! ## Clocks and stems -/

namespace Clock

/-- A reading that is a finite number. -/
def Finite : Clock → Prop
  | .whole _ => True
  | .float seconds => seconds.units?.isSome = true

/-- A reading whose number of milliseconds is finite. In floating point the product may overflow
although the reading does not. -/
def InRange : Clock → Prop
  | .whole _ => True
  | .float seconds => ((seconds.scale? 1000).bind Binary64.units?).isSome = true

/-- What is wrong with a reading that has no number of milliseconds. -/
def IsClockFault (fault : ShapeFault) : Prop := fault = .infiniteClock ∨ fault = .undefinedClock

/-- A reading has a number of milliseconds exactly if it is in range. -/
theorem guarded_milliseconds (clock : Clock) :
    Guarded clock.milliseconds clock.InRange IsClockFault := by
  cases clock with
  | whole seconds => exact Guarded.ok _
  | float seconds =>
    rw [milliseconds, InRange]
    cases seconds.scale? 1000 with
    | none =>
      refine ⟨fun h => absurd h Bool.false_ne_true, fun _ => ⟨_, rfl, ?_⟩⟩
      split
      · exact Or.inr rfl
      · exact Or.inl rfl
    | some product =>
      -- The product may be infinite although the reading is a number.
      simp only [Option.bind_some, Binary64.truncate?]
      cases product.units? with
      | none => exact ⟨fun h => absurd h Bool.false_ne_true, fun _ => ⟨_, rfl, Or.inl rfl⟩⟩
      | some units => exact (Guarded.ok _).congr (iff_of_true trivial rfl)

end Clock

namespace Stem

/-- A stem that has a text: a token, or a time whose number of milliseconds is finite. -/
def InRange : Stem → Prop
  | .timestamp clock => clock.InRange
  | .unique _ => True

/-- A stem has a text exactly if it is in range. -/
theorem guarded_text (stem : Stem) : Guarded stem.text stem.InRange Clock.IsClockFault := by
  cases stem with
  | timestamp clock => exact clock.guarded_milliseconds.bind_ok
  | unique token => exact Guarded.ok _

end Stem

/-! ## Selections from an author -/

/-- A text, or null where it is missing. -/
def Value.IsTextOrNull (v : Value) : Prop := v = .null ∨ v.isText = true

/-- With a text in place of null there is a text. -/
theorem Value.IsTextOrNull.isText_orElse {v : Value} (h : v.IsTextOrNull) :
    (v.orElse (.text "")).isText = true := by
  rcases h with rfl | h
  · rfl
  · exact Value.isText_orElse h rfl

namespace Selection

variable {s : Selection} {part : Part}

/-- A selection as an author makes it: its texts are texts, or null where they may be missing, and
the values are picked under texts. The values, the operators and the additional resources may be
anything. -/
structure Authored (s : Selection) : Prop where
  /-- The name is a text or missing. -/
  name : s.name.IsTextOrNull
  /-- The description is a text or missing. -/
  description : s.description.IsTextOrNull
  /-- The subject is a text or missing. -/
  subject : s.subject.IsTextOrNull
  /-- The actions are texts. -/
  actions : ∀ action ∈ s.actions, action.isText = true
  /-- The resources are texts. -/
  resources : ∀ resource ∈ s.resources, resource.isText = true
  /-- Values are picked under texts. -/
  keys : ∀ side, ∀ entry ∈ (s.picks side).values, entry.1.isText = true

/-- A selection lacks a part: the subject is null or a text without characters, or there are no
actions or no resources. -/
def Lacks (s : Selection) : Part → Prop
  | .subject => s.subject = .null ∨ s.subject.codes? = some []
  | .actions => s.actions = []
  | .resources => s.resources = []

/-- The missing parts come in the order subject, actions, resources. -/
theorem missingParts_sublist (s : Selection) :
    s.missingParts.Sublist [.subject, .actions, .resources] := by
  rw [missingParts_eq]
  exact List.filter_sublist

namespace Authored

variable (hs : s.Authored)

include hs

/-- The missing parts of a selection from an author are those that it lacks. -/
theorem mem_missingParts_iff : part ∈ s.missingParts ↔ s.Lacks part := by
  rw [missingParts_eq, List.mem_filter]
  cases part with
  | subject =>
    -- Of the texts only the one without characters counts as missing.
    rcases hs.subject with h | h
    · simp [Lacks, h, Value.truthy]
    · rcases Value.isText_iff.mp h with ⟨t, ht⟩ | ⟨codes, ht⟩
      · simp [Lacks, ht, Value.truthy, Value.codes?]
      · simp [Lacks, ht, Value.truthy, Value.codes?]
  | actions => simp [Lacks]
  | resources => simp [Lacks]

/-- A selection from an author is complete exactly if it lacks no part. -/
theorem isComplete_iff_forall_not_lacks : s.isComplete = true ↔ ∀ part, ¬ s.Lacks part := by
  rw [isComplete, List.isEmpty_iff, List.eq_nil_iff_forall_not_mem]
  simp only [hs.mem_missingParts_iff]

/-- A complete selection from an author can be compiled. -/
theorem compilable (hcomplete : s.isComplete = true) : s.Compilable where
  complete := hcomplete
  name_text := hs.name.isText_orElse
  description_text := hs.description.isText_orElse
  action_hashable := fun action haction => Value.hashable_of_isText (hs.actions action haction)

end Authored

end Selection

/-! ## What compiling demands -/

namespace Registry

variable {r : Registry} {s : Selection} {stem : Stem} {start : String}

/-- A complete selection is compiled exactly if it can be and the stem has a text. Otherwise
compiling it ends in a fault of a value. -/
theorem guarded_compile (hs : s.isComplete = true) :
    Guarded (r.compile stem s) (s.Compilable ∧ ∃ start, stem.text = .ok start)
      fun fault => ∃ cause, fault = .shape cause := by
  refine ⟨fun ⟨hcompilable, start, hstart⟩ =>
    ⟨_, compile_eq_document hcompilable hstart⟩, fun hnot => ?_⟩
  cases hcompile : r.compile stem s with
  | ok d =>
    obtain ⟨hcompilable, start, hstart, -⟩ := compile_eq_ok_iff.mp hcompile
    exact absurd ⟨hcompilable, start, hstart⟩ hnot
  | error fault =>
    rw [compile_of_isComplete hs] at hcompile
    exact ⟨fault, rfl, exists_of_liftM_eq_error hcompile⟩

/-- A complete selection whose stem has no text ends in the fault of the stem. -/
theorem compile_of_text_eq_error (hs : s.isComplete = true) {cause : ShapeFault}
    (hstem : stem.text = .error cause) : r.compile stem s = .error (.shape cause) := by
  obtain ⟨-, hactions, hresources⟩ := (s.isComplete_iff).mp hs
  have hrules : r.rules stem s = .error cause := by
    rw [rules, hactions, hresources, hstem]
    rfl
  rw [compile_of_isComplete hs, hrules]
  rfl

/-- A complete selection from an author is compiled exactly if the stem is in range, and the only
fault is that of the clock. -/
theorem guarded_compile_of_authored (hs : s.Authored) (hcomplete : s.isComplete = true) :
    Guarded (r.compile stem s) stem.InRange
      fun fault => ∃ cause, Clock.IsClockFault cause ∧ fault = .shape cause := by
  refine ⟨fun hstem => ?_, fun hstem => ?_⟩
  · -- Nothing else in such a selection can fail.
    obtain ⟨start, hstart⟩ := stem.guarded_text.succeeds hstem
    exact ⟨_, compile_eq_document (hs.compilable hcomplete) hstart⟩
  · obtain ⟨cause, hcause, hclock⟩ := stem.guarded_text.fails hstem
    exact ⟨_, compile_of_text_eq_error hcomplete hcause, cause, hclock, rfl⟩

/-- A selection from an author is refused exactly if it is not complete, and for its missing parts.
-/
theorem compile_eq_incomplete_iff (hs : s.Authored) {missing : List Part} :
    r.compile stem s = .error (.incomplete missing) ↔
      s.isComplete = false ∧ s.missingParts = missing := by
  constructor
  · intro h
    cases hcomplete : s.isComplete with
    | true =>
      -- The fault of a complete selection is that of the clock.
      obtain ⟨cause, -, hfault⟩ := (guarded_compile_of_authored hs hcomplete).fault h
      cases hfault
    | false =>
      rw [compile_of_not_isComplete hcomplete, Except.error.injEq, Fault.incomplete.injEq] at h
      exact ⟨rfl, h⟩
  · rintro ⟨hcomplete, rfl⟩
    exact compile_of_not_isComplete hcomplete

end Registry

/-! ## Reopening what was compiled -/

variable {r : Registry} {s t : Selection} {stem : Stem} {start : String} {c : Catalog}
  {d : Document} {side : Side}

/-- A catalog whose identifiers and names are texts. -/
def Catalog.HasTextKeys (c : Catalog) : Prop :=
  ∀ a ∈ c.attributes, a.id.isText = true ∧ a.name.isText = true

namespace Catalog.HasTextKeys

variable (hc : c.HasTextKeys)

include hc

/-- What answers to a name is identified by a text, and so the name is a text too. -/
theorem isText_of_answersTo {a : Attribute} {name : Value} (ha : a ∈ c.attributes)
    (h : a.answersTo name = true) : name.isText = true := by
  obtain ⟨hid, hname⟩ := hc a ha
  rw [Attribute.answersTo, Bool.or_eq_true, Value.equals_iff_of_isText hname,
    Value.equals_iff_of_isText hid] at h
  rcases h with rfl | rfl
  · exact hname
  · exact hid

/-- A condition is filed under a key exactly if its name can be one. -/
theorem hashable_filingKey_iff (category : Category) (name : Value) :
    (c.filingKey category name).hashable = true ↔ name.hashable = true := by
  rw [filingKey]
  cases hfound : c.resolve? category name with
  | none => rfl
  | some a =>
    -- The condition is filed under an identifier, and its name is a text as well.
    obtain ⟨ha, hanswers⟩ := mem_of_resolve? hfound
    exact iff_of_true (Value.hashable_of_isText (hc a ha).1)
      (Value.hashable_of_isText (hc.isText_of_answersTo ha hanswers))

/-- A document can be reopened exactly if the names in its conditions can be keys. -/
theorem canReopen_iff :
    c.CanReopen d ↔ ∀ side, ∀ x ∈ d.conditionsOn side, x.name.hashable = true := by
  simp only [CanReopen, hc.hashable_filingKey_iff]

end Catalog.HasTextKeys

/-- The conditions of a compiled document are named by attributes of the catalog. -/
theorem Registry.exists_of_mem_conditionsOn {x : Condition}
    (hx : x ∈ (r.document start s).conditionsOn side) :
    ∃ entry ∈ r.catalog.byId, entry.2.name = x.name := by
  obtain ⟨xs, hxs, hx⟩ := Document.exists_of_mem_conditionsOn hx
  rw [eq_of_mem_conditionLists hxs] at hx
  obtain ⟨clause, hclause, rfl⟩ := List.mem_map.mp hx
  obtain ⟨entry, hentry, hdefinition⟩ := Catalog.exists_of_mem_clauses hclause
  exact ⟨entry, hentry, congrArg Attribute.name hdefinition⟩

/-- What comes of reopening the document of a complete selection is complete, whatever the catalog.
-/
theorem Registry.isComplete_of_hydrate (hs : s.isComplete = true)
    (ht : c.hydrate (r.document start s) = .ok t) : t.isComplete = true := by
  have hne : (r.document start s).rules ≠ [] := rules_ne_nil hs
  obtain ⟨rule, rest, hrules⟩ := List.exists_cons_of_ne_nil hne
  have hrule : rule ∈ (r.document start s).rules := hrules ▸ List.mem_cons_self ..
  -- The subject is that of the first rule; the actions and resources are those of the document.
  have hsubject : t.subject = s.subject := by
    rw [Catalog.eq_of_hydrate ht, hrules]
    exact (eq_of_mem_rules hrule).1.trans (Selection.orElse_subject hs)
  have hactions : t.actions = s.actions := by
    rw [Catalog.eq_of_hydrate ht]
    rfl
  have hresources : t.resources = s.resources := by
    rw [Catalog.eq_of_hydrate ht]
    rfl
  rw [Selection.isComplete_iff] at hs ⊢
  rw [hsubject, hactions, hresources]
  exact hs

/-! ## Refusals -/

/-- A selection from an author is refused exactly if it lacks a part, and then for the parts that it
lacks, in the order subject, actions, resources. The only other fault is that of a clock out of
range, so a selection that lacks nothing is compiled for every clock in range, and it is never
refused for want of rules. The document has one subject and a rule. It can be reopened with any
catalog whose identifiers and names are texts if the names in its conditions can be keys, as those
of a catalog with texts can, and what comes of reopening it is complete. -/
theorem compile_refuses_iff (r : Registry) (stem : Stem) {s : Selection} (hs : s.Authored) :
    ((∃ missing, r.compile stem s = .error (.incomplete missing)) ↔ ∃ part, s.Lacks part) ∧
    (∀ missing, r.compile stem s = .error (.incomplete missing) →
      missing.Sublist [.subject, .actions, .resources] ∧ ∀ part, part ∈ missing ↔ s.Lacks part) ∧
    (∀ fault, r.compile stem s = .error fault → (∃ missing, fault = .incomplete missing) ∨
      ¬ stem.InRange ∧ ∃ cause, Clock.IsClockFault cause ∧ fault = .shape cause) ∧
    ((∃ d, r.compile stem s = .ok d) ↔ (∀ part, ¬ s.Lacks part) ∧ stem.InRange) ∧
    ((∀ part, ¬ s.Lacks part) → ∀ rules, r.rules stem s = .ok rules → rules ≠ []) ∧
    ∀ d, r.compile stem s = .ok d →
      d.subjects = [s.subject] ∧ d.rules ≠ [] ∧
      ∀ c : Catalog, c.HasTextKeys →
        ((∃ t, c.hydrate d = .ok t) ↔
          ∀ side, ∀ x ∈ d.conditionsOn side, x.name.hashable = true) ∧
        ((∀ entry ∈ r.catalog.byId, entry.2.name.hashable = true) → ∃ t, c.hydrate d = .ok t) ∧
        ∀ t, c.hydrate d = .ok t → t.isComplete = true := by
  -- Everything depends on whether the selection is complete, which is what the code asks.
  have hcomplete : s.isComplete = true ↔ ∀ part, ¬ s.Lacks part :=
    hs.isComplete_iff_forall_not_lacks
  refine ⟨?_, ?_, ?_, ?_, ?_, ?_⟩
  · simp only [Registry.compile_eq_incomplete_iff hs, exists_and_left, exists_eq', and_true]
    rw [← Bool.not_eq_true, hcomplete, not_forall_not]
  · intro missing h
    obtain ⟨-, rfl⟩ := (Registry.compile_eq_incomplete_iff hs).mp h
    exact ⟨s.missingParts_sublist, fun part => hs.mem_missingParts_iff⟩
  · intro fault hfault
    cases h : s.isComplete with
    | false =>
      rw [Registry.compile_of_not_isComplete h, Except.error.injEq] at hfault
      exact Or.inl ⟨_, hfault.symm⟩
    | true =>
      -- In range the selection would be compiled, and there would be no fault.
      refine Or.inr ⟨fun hstem => ?_, (Registry.guarded_compile_of_authored hs h).fault hfault⟩
      have hcompiled : ∃ d, r.compile stem s = .ok d :=
        (Registry.guarded_compile_of_authored hs h).succeeds hstem
      obtain ⟨d, hd⟩ := hcompiled
      rw [hd] at hfault
      cases hfault
  · rw [← hcomplete]
    constructor
    · rintro ⟨d, hd⟩
      obtain ⟨hcompilable, start, hstart, -⟩ := Registry.compile_eq_ok_iff.mp hd
      exact ⟨hcompilable.complete, stem.guarded_text.exists_ok_iff.mp ⟨start, hstart⟩⟩
    · rintro ⟨h, hstem⟩
      exact (Registry.guarded_compile_of_authored hs h).succeeds hstem
  · intro hlacks rules hrules
    exact Registry.rules_ne_nil_of_eq_ok (hcomplete.mpr hlacks) hrules
  · intro d hd
    obtain ⟨⟨h, -, -, -⟩, start, -, rfl⟩ := Registry.compile_eq_ok_iff.mp hd
    refine ⟨rfl, Registry.rules_ne_nil h, ?_⟩
    intro c hc
    have hreopen := (c.guarded_hydrate (r.document start s)).exists_ok_iff.trans hc.canReopen_iff
    refine ⟨hreopen, ?_, fun t ht => Registry.isComplete_of_hydrate h ht⟩
    intro hnames
    -- The names in the conditions are names of attributes in the index of the catalog.
    refine hreopen.mpr fun side x hx => ?_
    obtain ⟨entry, hentry, hname⟩ := Registry.exists_of_mem_conditionsOn hx
    rw [← hname]
    exact hnames entry hentry

/-- The selection of a grade is one from an author, and it lacks nothing. -/
theorem gradeSelection_authored :
    gradeSelection.Authored ∧ ∀ part, ¬ gradeSelection.Lacks part := by
  have hauthored : gradeSelection.Authored := by
    refine ⟨.inr rfl, .inr rfl, .inr rfl, by decide, by decide, ?_⟩
    intro side
    cases side <;> decide
  exact ⟨hauthored, hauthored.isComplete_iff_forall_not_lacks.mp rfl⟩

/-- The catalog of grades has texts for identifiers and names. -/
theorem hasTextKeys_grades : grades.HasTextKeys := by
  unfold Catalog.HasTextKeys
  decide

/-- The selection of a grade is compiled and reopened, and without subject and actions it is refused
for the want of both. -/
theorem compile_refuses_iff_grades :
    (∃ d, ({ catalog := grades } : Registry).compile (.timestamp (.whole 5)) gradeSelection = .ok d ∧
      d.rules ≠ [] ∧ ∃ t, grades.hydrate d = .ok t ∧ t.isComplete = true) ∧
    ({ catalog := grades } : Registry).compile (.timestamp (.whole 5))
      { gradeSelection with subject := .null, actions := [] } =
        .error (.incomplete [.subject, .actions]) ∧
    ∀ part, part ∈ [Part.subject, .actions] ↔
      { gradeSelection with subject := .null, actions := [] }.Lacks part := by
  obtain ⟨hauthored, hlacks⟩ := gradeSelection_authored
  have hbare : { gradeSelection with subject := .null, actions := [] }.Authored :=
    { hauthored with subject := .inl rfl, actions := nofun }
  constructor
  · obtain ⟨-, -, -, hcompiled, -, hdocument⟩ :=
      compile_refuses_iff { catalog := grades } (.timestamp (.whole 5)) hauthored
    obtain ⟨d, hd⟩ := hcompiled.mpr ⟨hlacks, trivial⟩
    obtain ⟨-, hrules, hreopened⟩ := hdocument d hd
    obtain ⟨-, hhydrate, hcomplete⟩ := hreopened grades hasTextKeys_grades
    obtain ⟨t, ht⟩ := hhydrate (by decide)
    exact ⟨d, hd, hrules, t, ht, hcomplete t ht⟩
  · obtain ⟨-, hmissing, -⟩ :=
      compile_refuses_iff { catalog := grades } (.timestamp (.whole 5)) hbare
    exact ⟨rfl, (hmissing [.subject, .actions] rfl).2⟩

/-! ## Faults of selections that lack nothing -/

/-- The greatest finite reading of a clock. -/
def lastReading : Clock := .float (.ofRank false (infinityRank - 1))

/-- The greatest finite reading has no finite number of milliseconds. -/
theorem lastReading_spec : lastReading.Finite ∧ ¬ lastReading.InRange := by
  unfold lastReading Clock.Finite Clock.InRange
  decide +kernel

/-- A catalog in which an attribute has a list for a name. -/
def listNamed : Catalog := .ofList [
  { id := .text "grade", name := .list [.text "level"], displayName := .text "Grade"
    categories := [.text "subject"] }]

/-- A selection from an author that lacks nothing is not compiled for every finite reading of the
clock; and where the name of an attribute is a list, its document cannot be reopened with a catalog
of texts. -/
theorem not_forall_compile_and_hydrate :
    (¬ ∀ (r : Registry) (clock : Clock) (s : Selection), clock.Finite → s.Authored →
      (∀ part, ¬ s.Lacks part) → ∃ d, r.compile (.timestamp clock) s = .ok d) ∧
    ¬ ∀ (r : Registry) (clock : Clock) (s : Selection) (d : Document), clock.Finite →
      s.Authored → r.compile (.timestamp clock) s = .ok d →
      ∀ c : Catalog, c.HasTextKeys → ∃ t, c.hydrate d = .ok t := by
  obtain ⟨hauthored, hlacks⟩ := gradeSelection_authored
  constructor
  · intro h
    obtain ⟨hfinite, hrange⟩ := lastReading_spec
    obtain ⟨d, hd⟩ := h { catalog := grades } lastReading gradeSelection hfinite hauthored hlacks
    obtain ⟨-, start, hstart, -⟩ := Registry.compile_eq_ok_iff.mp hd
    exact hrange (lastReading.guarded_milliseconds.bind_ok.exists_ok_iff.mp ⟨start, hstart⟩)
  · intro h
    have hd : ({ catalog := listNamed } : Registry).compile (.timestamp (.whole 0)) gradeSelection =
        .ok _ := Registry.compile_eq_document gradeSelection_spec.1 rfl
    obtain ⟨t, ht⟩ := h { catalog := listNamed } (.whole 0) gradeSelection _ trivial hauthored hd
      grades hasTextKeys_grades
    -- The list is found by no name, and it cannot be a key itself.
    cases ht

end PolicyAuthoring
