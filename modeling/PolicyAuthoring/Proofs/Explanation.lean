import PolicyAuthoring.Proofs.Alternatives
import PolicyAuthoring.Proofs.CommandLine.Output
import PolicyAuthoring.Proofs.Reloading
import PolicyAuthoring.Proofs.Rules
import PolicyAuthoring.Proofs.Settled

/-!
# Explaining rules by their identifiers

An explanation is about the first rule with an identifier. The identifiers of the rules of one
compile differ, so the search finds the very rule that an identifier belongs to, and nothing for
anything else (`Document.rule?_of_mem`, `Document.rule?_eq_none`). Writing a document and reading it
again keeps the identifiers, and a condition on a tuple reads the same as one on a list, so that a
stored document is explained as the compiled one is (`explain_compile`).

No explanation is empty (`Document.explain_ne_nil`), so that the command for it takes none for a
rule that is not there.
-/

namespace PolicyAuthoring

/-! ## Finding a rule -/

namespace Document

variable {d : Document} {rule : Rule} {id : Value}

/-- A rule is found under its identifier if the identifiers of the rules differ. -/
theorem rule?_of_mem (hnodup : (d.rules.map Rule.id).Nodup) (htext : rule.id.isText = true)
    (hrule : rule ∈ d.rules) : d.rule? rule.id = some rule := by
  have hself : rule.id.equals rule.id = true := (Value.equals_iff_of_isText htext).mpr rfl
  obtain ⟨found, hfound⟩ : ∃ found, d.rule? rule.id = some found := by
    apply Option.isSome_iff_exists.mp
    rw [rule?, List.find?_isSome]
    exact ⟨rule, hrule, hself⟩
  -- What is found has the identifier too, and only one rule has it.
  have hid : found.id = rule.id := by
    have hequals := List.find?_some hfound
    exact (Value.equals_iff_of_isText_right htext).mp hequals
  rw [hfound, List.inj_on_of_nodup_map hnodup (List.mem_of_find?_eq_some hfound) hrule hid]

/-- Nothing is found under what is the identifier of no rule. -/
theorem rule?_eq_none (htext : ∀ rule ∈ d.rules, rule.id.isText = true)
    (hid : id ∉ d.rules.map Rule.id) : d.rule? id = none := by
  rw [rule?, List.find?_eq_none]
  intro rule hrule hequals
  have heq : rule.id = id := (Value.equals_iff_of_isText (htext rule hrule)).mp hequals
  exact hid (heq ▸ List.mem_map_of_mem hrule)

/-- An explanation is never empty, since it begins with the identifier of the rule. -/
theorem explain_ne_nil {text : CodePoints} (h : d.explain id = some text) : text ≠ [] := by
  obtain ⟨rule, -, rfl⟩ := Option.map_eq_some_iff.mp h
  intro hnil
  have hlength := congrArg List.length hnil
  simp [ruleLines, Text.joinCodes_cons_cons] at hlength

/-! ## Lines about conditions -/

/-- The lines about conditions are a blank one, the heading and one for each condition in order;
there are none about no condition. -/
theorem conditionLines_eq (heading : String) (conditions : List Condition) :
    conditionLines heading conditions =
      if conditions = [] then [] else [] :: heading :: conditions.map conditionLine := by
  simp only [conditionLines, List.isEmpty_iff]

/-- The line about a condition stays the same when its tuples become lists. -/
theorem conditionLine_plain (c : Condition) : conditionLine c.plain = conditionLine c := by
  rw [conditionLine, conditionLine, Condition.plain, Sentence.formatValue_plainValue]

/-- Settled conditions read the same after they were written and read again. -/
theorem conditionLines_reread {conditions : List Condition} (h : ∀ x ∈ conditions, x.Settled)
    (heading : String) :
    conditionLines heading (conditions.map Condition.reread) =
      conditionLines heading conditions := by
  rw [Condition.map_reread_eq_map_plain h, conditionLines, conditionLines, List.isEmpty_map,
    List.map_map, Function.comp_def]
  simp only [conditionLine_plain]

/-! ## Compiled documents and what is read of them -/

/-- The documents as which a document passes: itself, and what is read again after it was written.
The label of an action is shown as it is in the first, and by the name of the action in the second
if it counts as missing. -/
inductive PassesAs (d : Document) : Document → (Value → Value → Value) → Prop
  /-- A document passes as itself. -/
  | itself : d.PassesAs d fun label _ => label
  /-- A document passes as what is read again. -/
  | again {e : Document} (h : ofValue d.toValue = .ok e) :
      d.PassesAs e fun label action => label.orElse action

variable {e : Document} {shown : Value → Value → Value}

/-- The identifiers of the rules stay the same. -/
theorem PassesAs.ids (h : d.PassesAs e shown) : e.rules.map Rule.id = d.rules.map Rule.id := by
  cases h with
  | itself => rfl
  | again h =>
    rw [ofValue_toValue, Except.ok.injEq] at h
    rw [← h, reread, List.map_map]
    rfl

end Document

/-- Below the product of their numbers every number pairs an action with a resource. -/
theorem Selection.exists_pair {s : Selection} {k : Nat}
    (hk : k < s.actions.length * s.resources.length) :
    ∃ action ∈ s.actions, ∃ resource, s.actions[k / s.resources.length]? = some action ∧
      s.resources[k % s.resources.length]? = some resource := by
  have hpos : 0 < s.resources.length := Nat.pos_of_lt_mul_left hk
  have haction : k / s.resources.length < s.actions.length := by
    apply Nat.div_lt_of_lt_mul
    rwa [Nat.mul_comm]
  have hresource : k % s.resources.length < s.resources.length := Nat.mod_lt k hpos
  exact ⟨_, List.getElem_mem haction, _, List.getElem?_eq_getElem haction,
    List.getElem?_eq_getElem hresource⟩

namespace Registry

variable {r : Registry} {s : Selection} {start : String} {e : Document}
  {shown : Value → Value → Value}

/-- Rule `k` of a compiled document, and of what is read of it, is about action `k / m` and resource
`k % m`, where `m` is the number of resources. -/
theorem exists_ruleLines (hs : s.isComplete = true) (h : (r.document start s).PassesAs e shown)
    {k : Nat} {action resource : Value}
    (haction : s.actions[k / s.resources.length]? = some action)
    (hresource : s.resources[k % s.resources.length]? = some resource) :
    ∃ rule, e.rules[k]? = some rule ∧ rule.id = .text (start ++ "-" ++ decimalText k) ∧
      e.ruleLines rule =
        (["Rule: " ++ Text.codes (start ++ "-" ++ decimalText k),
          "Effect: " ++ s.effect.word,
          "Subject: " ++ s.subject.display,
          "Action: " ++ (shown (r.directory.labelOf .action action) action).display ++
            " (" ++ action.display ++ ")",
          "Object: " ++ resource.display] : List CodePoints) ++
        Document.conditionLines "Subject conditions:" (r.catalog.conditions s.subjectPicks) ++
        Document.conditionLines "Object conditions:" (r.catalog.conditions s.resourcePicks) := by
  have hrule : (r.document start s).rules[k]? = some _ := getElem?_rules haction hresource
  rw [Selection.orElse_subject hs] at hrule
  cases h with
  | itself => exact ⟨_, hrule, rfl, rfl⟩
  | again h =>
    rw [Document.ofValue_toValue, Except.ok.injEq] at h
    subst h
    have hreread := congrArg (Option.map Rule.reread) hrule
    rw [← List.getElem?_map, Option.map_some] at hreread
    refine ⟨_, hreread, rfl, ?_⟩
    -- The conditions are settled, so that nothing but tuples changes, and tuples read the same.
    rw [← Document.conditionLines_reread (r.catalog.settled_conditions s.subjectPicks),
      ← Document.conditionLines_reread (r.catalog.settled_conditions s.resourcePicks)]
    rfl

/-- Where the labels are those of references, the label of a text is shown as it is. -/
theorem shown_labelOf (h : (r.document start s).PassesAs e shown) {action : Value}
    (hdirectory : ∃ references, r.directory.actions = Directory.index references)
    (haction : action.isText = true) :
    shown (r.directory.labelOf .action action) action = r.directory.labelOf .action action := by
  cases h with
  | itself => rfl
  | again => exact Directory.orElse_labelOf hdirectory haction

/-- The identifiers of a compiled document, and of what is read of it, are the stem with the numbers
from zero on. -/
theorem ids_of_passesAs (h : (r.document start s).PassesAs e shown) :
    e.rules.map Rule.id =
      (List.range (s.actions.length * s.resources.length)).map fun k : Nat =>
        Value.text (start ++ "-" ++ decimalText k) := by
  rw [h.ids, ids_document]

end Registry

/-! ## The command -/

namespace CommandLine

/-- Since no explanation is empty, a rule that has one is explained. -/
theorem explanationLines_of_some {d : Document} {rule : String} {text : CodePoints}
    (h : d.explain (.text rule) = some text) : explanationLines d rule = (0, [text]) := by
  have hnonempty : text ≠ [] := Document.explain_ne_nil h
  rw [explanationLines, h, Option.filter_some, if_pos (decide_eq_true hnonempty)]

/-- Where there is no explanation, the known rules are listed. -/
theorem explanationLines_of_none {d : Document} {rule : String}
    (h : d.explain (.text rule) = none) : explanationLines d rule =
      (1, failureLine ("Rule not found: " ++ rule) :: "\nAvailable rules:" ::
        d.rules.map fun rule => ("  - " ++ rule.id.display : CodePoints)) := by
  rw [explanationLines, h]
  rfl

/-- Lines that the stream takes are printed one after the other. -/
theorem forM_printLine {s : Surroundings} {lines : List CodePoints}
    (h : ∀ line ∈ lines, s.Takes (line ++ "\n")) (w : World) :
    lines.forM s.printLine w =
      .ok () { w with printed := w.printed ++ Text.lines lines } := by
  induction lines generalizing w with
  | nil =>
    rw [Text.lines_nil, List.append_nil]
    rfl
  | cons line lines ih =>
    rw [List.forall_mem_cons] at h
    refine (Run.bind_of_ok (Surroundings.printLine_of_takes h.1)).trans ?_
    rw [ih h.2, Text.lines_cons, List.append_assoc]

/-- What comes of an explanation, when both files are loaded and the stream takes the lines. -/
theorem Request.outcome_explain {s : Surroundings} {request : Request} {r : Registry}
    {d : Document} {path rule : String} (hcommand : request.command = .explain path rule)
    (hregistry : request.registry s.files = .ok r) (hload : s.files.loadDocument path = .ok d)
    (htakes : ∀ line ∈ (explanationLines d rule).2, s.Takes (line ++ "\n")) :
    (Invocation.request request).outcome s =
      .ok (explanationLines d rule).1 ⟨s.files, Text.lines (explanationLines d rule).2⟩ := by
  refine answering_of_ok ?_
  rw [Run.bind_of_ok (Run.load_ok hregistry), perform, hcommand]
  refine (Run.bind_of_ok (Run.load_ok hload)).trans ?_
  exact (Run.bind_of_ok (forM_printLine htakes _)).trans rfl

end CommandLine

/-! ## Explaining the rules of a compile -/

/-- The rules of a compiled document, and of the same document after it was written and read again,
are explained one by one: the identifier of a rule finds that rule and no other, its explanation is
about the action and the resource that it pairs, under the conditions of the selection, one line for
each of them, and what is the identifier of no rule has no explanation. The command for it prints
the explanation and succeeds in the first case, and prints the identifiers there are and fails in
the second. -/
theorem explain_compile {r : Registry} {stem : Stem} {s : Selection} {d : Document}
    (hd : r.compile stem s = .ok d) :
    ∃ start, stem.text = .ok start ∧ ∀ (e : Document) (shown : Value → Value → Value),
      d.PassesAs e shown →
      let count := s.actions.length * s.resources.length
      let id (k : Nat) : Value := .text (start ++ "-" ++ decimalText k)
      let about (heading : String) (conditions : List Condition) : List CodePoints :=
        if conditions = [] then []
        else [] :: heading :: conditions.map fun c =>
          ("  - " ++ c.name.display ++ " " ++ c.operator.display ++ " " ++
            Sentence.formatValue c.value : CodePoints)
      e.rules.length = count ∧
      (∀ k < count, ∃ action resource label rule text,
        s.actions[k / s.resources.length]? = some action ∧
        s.resources[k % s.resources.length]? = some resource ∧
        r.directory.label .action action = .ok label ∧
        ((∃ references, r.directory.actions = Directory.index references) →
          action.isText = true → shown label action = label) ∧
        e.rules[k]? = some rule ∧ e.rule? (id k) = some rule ∧ e.explain (id k) = some text ∧
        text ≠ [] ∧
        text = Text.joinCodes "\n" (
          ["Rule: " ++ Text.codes (start ++ "-" ++ decimalText k),
            "Effect: " ++ s.effect.word,
            "Subject: " ++ s.subject.display,
            "Action: " ++ (shown label action).display ++ " (" ++ action.display ++ ")",
            "Object: " ++ resource.display] ++
          about "Subject conditions:" (r.catalog.conditions s.subjectPicks) ++
          about "Object conditions:" (r.catalog.conditions s.resourcePicks))) ∧
      (∀ v, v ∉ (List.range count).map id → e.explain v = none) ∧
      ∀ (surroundings : CommandLine.Surroundings) (request : CommandLine.Request)
        (path rule : String) (registry : Registry),
        request.command = .explain path rule →
        request.registry surroundings.files = .ok registry →
        surroundings.files.loadDocument path = .ok e →
        let outcome := (CommandLine.Invocation.request request).outcome surroundings
        let known : List CodePoints := e.rules.map fun rule => "  - " ++ rule.id.display
        let refusal : List CodePoints :=
          CommandLine.failureLine ("Rule not found: " ++ rule) :: "\nAvailable rules:" :: known
        (.text rule ∈ (List.range count).map id → ∃ text, e.explain (.text rule) = some text ∧
          (surroundings.Takes (text ++ "\n") →
            outcome = .ok 0 ⟨surroundings.files, text ++ "\n"⟩)) ∧
        (.text rule ∉ (List.range count).map id →
          (∀ line ∈ refusal, surroundings.Takes (line ++ "\n")) →
            outcome = .ok 1 ⟨surroundings.files, Text.lines refusal⟩) := by
  obtain ⟨hs, start, hstem, rfl⟩ := Registry.compile_eq_ok_iff.mp hd
  refine ⟨start, hstem, ?_⟩
  intro e shown hpasses count id about
  have hids : e.rules.map Rule.id = (List.range count).map id := Registry.ids_of_passesAs hpasses
  have hnodup : (e.rules.map Rule.id).Nodup := by
    rw [hpasses.ids]
    exact r.nodup_ids start s
  have htext : ∀ rule ∈ e.rules, rule.id.isText = true := by
    intro rule hrule
    have hid : rule.id ∈ (List.range count).map id := hids ▸ List.mem_map_of_mem hrule
    obtain ⟨k, -, hk⟩ := List.mem_map.mp hid
    rw [← hk]
    rfl
  have hnone : ∀ v, v ∉ (List.range count).map id → e.explain v = none := by
    intro v hv
    rw [Document.explain, Document.rule?_eq_none htext (hids ▸ hv), Option.map_none]
  have hsome : ∀ v ∈ (List.range count).map id, ∃ text, e.explain v = some text := by
    intro v hv
    rw [← hids] at hv
    obtain ⟨rule, hrule, rfl⟩ := List.mem_map.mp hv
    rw [Document.explain, Document.rule?_of_mem hnodup (htext rule hrule) hrule]
    exact ⟨_, rfl⟩
  refine ⟨?_, ?_, hnone, ?_⟩
  · have hlength := congrArg List.length hids
    simpa using hlength
  · intro k hk
    obtain ⟨action, hmem, resource, haction, hresource⟩ := Selection.exists_pair hk
    obtain ⟨rule, hrule, hid, hlines⟩ :=
      Registry.exists_ruleLines hs.complete hpasses haction hresource
    have hfound : e.rule? (id k) = some rule := by
      have hself := Document.rule?_of_mem hnodup (hid ▸ rfl) (List.mem_of_getElem? hrule)
      rwa [hid] at hself
    have hexplain : e.explain (id k) = some (Text.joinCodes "\n" (e.ruleLines rule)) := by
      rw [Document.explain, hfound, Option.map_some]
    rw [Document.conditionLines_eq, Document.conditionLines_eq] at hlines
    exact ⟨action, resource, _, rule, _, haction, hresource,
      r.directory.label_of_hashable .action (hs.action_hashable action hmem),
      Registry.shown_labelOf hpasses, hrule, hfound, hexplain,
      Document.explain_ne_nil hexplain, congrArg (Text.joinCodes "\n") hlines⟩
  · intro surroundings request path rule registry hcommand hregistry hload outcome known refusal
    have houtcome := CommandLine.Request.outcome_explain hcommand hregistry hload
    constructor
    · intro hrule
      obtain ⟨text, hexplain⟩ := hsome _ hrule
      rw [CommandLine.explanationLines_of_some hexplain] at houtcome
      refine ⟨text, hexplain, fun htakes => ?_⟩
      simpa using houtcome (List.forall_mem_singleton.mpr htakes)
    · intro hrule
      rw [CommandLine.explanationLines_of_none (hnone _ hrule)] at houtcome
      exact houtcome

/-- A selection of two actions and two resources, with a pick for the subject. -/
def pairsSelection : Selection where
  name := .text "Pairs"
  subject := .text "clerk"
  actions := [.text "read", .text "write"]
  resources := [.text "file", .text "archive"]
  subjectPicks := { values := [(.text "clearance", .list [.int 2, .int 3])] }

/-- The selection of pairs consists of strings and JSON values, and it can be compiled. -/
theorem pairsSelection_spec : pairsSelection.IsJson ∧ pairsSelection.Compilable := by
  refine ⟨⟨⟨_, rfl⟩, ⟨_, rfl⟩, ⟨_, rfl⟩, ?_, ?_, nofun, ?_⟩, rfl, rfl, rfl, by decide⟩
  · simp [pairsSelection]
  · simp [pairsSelection]
  · intro side entry hentry
    cases side with
    | subject =>
      obtain rfl := List.mem_singleton.mp hentry
      refine .list _ ?_
      simp [Value.IsJson.int]
    | resource => simp [pairsSelection, Selection.picks] at hentry
    | additional => simp [pairsSelection, Selection.picks] at hentry

/-- The stem of the identifiers of a compile with the token 7. -/
def seventhStem : String := "rule-00000000000000000000000000000007"

/-- The document of the pairs is loaded again from the file that it is written to. -/
theorem exists_loadDocument_pairs : ∃ files : Files, files.loadDocument "policy.json" =
    .ok (levelRegistry.document seventhStem pairsSelection) := by
  obtain ⟨hnames, hlabels⟩ := levelRegistry_spec
  obtain ⟨text, -, hload⟩ :=
    (pairsSelection_spec.1.document hnames hlabels seventhStem).loadDocument_iff
  exact ⟨_, (hload [] "policy.json").mpr (by decide +kernel)⟩

/-- The surroundings of these files, with a stream in UTF-8. -/
def surroundingsOf (files : Files) : CommandLine.Surroundings :=
  { files, env := [], clock := .whole 0, token := 0 }

/-- The request to explain a rule of the document. -/
def explainRequest (rule : String) : CommandLine.Request :=
  { catalog := none, verbose := false, command := .explain "policy.json" rule }

/-- The explanation of the second rule. -/
def secondExplanation : String :=
  "Rule: rule-00000000000000000000000000000007-1\nEffect: Allow\nSubject: clerk\n" ++
    "Action: Read (read)\nObject: archive\n\nSubject conditions:\n  - level in 2 or 3"

/-- The second of the four rules is explained under its identifier, and the command for it prints
this and succeeds; a fifth rule is not there, and the command for it lists the four and fails. -/
theorem explain_compile_pairs :
    ∃ (d : Document) (files : Files),
      levelRegistry.compile (.unique 7) pairsSelection = .ok d ∧
      files.loadDocument "policy.json" = .ok d ∧
      d.explain (.text (seventhStem ++ "-1")) = some secondExplanation ∧
      d.explain (.text (seventhStem ++ "-4")) = none ∧
      (CommandLine.Invocation.request (explainRequest (seventhStem ++ "-1"))).outcome
        (surroundingsOf files) = .ok 0 ⟨files, secondExplanation ++ "\n"⟩ ∧
      ∃ printed, (CommandLine.Invocation.request (explainRequest (seventhStem ++ "-4"))).outcome
        (surroundingsOf files) = .ok 1 ⟨files, printed⟩ := by
  obtain ⟨files, hload⟩ := exists_loadDocument_pairs
  have hd : levelRegistry.compile (.unique 7) pairsSelection = .ok _ :=
    Registry.compile_eq_document pairsSelection_spec.2 rfl
  obtain ⟨start, hstart, hexplained⟩ := explain_compile hd
  obtain rfl : seventhStem = start := Except.ok.inj hstart
  obtain ⟨-, hrules, hnone, hcommand⟩ := hexplained _ _ .itself
  obtain ⟨action, resource, label, rule, text, haction, hresource, hlabel, -, -, -, hexplain, -,
    htext⟩ := hrules 1 (by decide)
  obtain rfl : .text "read" = action := Option.some.inj haction
  obtain rfl : .text "archive" = resource := Option.some.inj hresource
  obtain rfl : .text "Read" = label := Except.ok.inj hlabel
  have hsecond : Value.text (seventhStem ++ "-1") ∈
      (List.range 4).map fun k : Nat => Value.text (seventhStem ++ "-" ++ decimalText k) :=
    List.mem_map.mpr ⟨1, by decide, rfl⟩
  have hfifth : Value.text (seventhStem ++ "-4") ∉
      (List.range 4).map fun k : Nat => Value.text (seventhStem ++ "-" ++ decimalText k) := by
    intro hmem
    obtain ⟨k, hk, hid⟩ := List.mem_map.mp hmem
    have heq : seventhStem ++ "-" ++ decimalText k = seventhStem ++ "-" ++ decimalText (4 : Nat) :=
      Value.text.inj hid
    obtain rfl := (eq_of_hyphen_eq heq).2
    exact absurd (List.mem_range.mp hk) (by decide)
  obtain ⟨hsucceeds, -⟩ :=
    hcommand (surroundingsOf files) (explainRequest (seventhStem ++ "-1")) _ _ {} rfl rfl hload
  obtain ⟨-, hfails⟩ :=
    hcommand (surroundingsOf files) (explainRequest (seventhStem ++ "-4")) _ _ {} rfl rfl hload
  obtain rfl : Text.codes secondExplanation = text := by
    rw [htext]
    decide +kernel
  refine ⟨_, files, hd, hload, hexplain, hnone _ hfifth, ?_, _, hfails hfifth ?_⟩
  · obtain ⟨text, hexplain', hprints⟩ := hsucceeds hsecond
    obtain rfl := Option.some.inj (hexplain.symm.trans hexplain')
    exact hprints (CommandLine.Surroundings.takes_append.mpr
      ⟨CommandLine.Surroundings.takes_codes_utf8 rfl _,
        CommandLine.Surroundings.takes_codes_utf8 rfl _⟩)
  · show ∀ line ∈ _, (surroundingsOf []).Takes _
    decide +kernel

end PolicyAuthoring
