import PolicyAuthoring.Proofs.CommandLine.Output
import PolicyAuthoring.Proofs.Loading
import PolicyAuthoring.Proofs.Refusal
import PolicyAuthoring.Proofs.Speaking
import PolicyAuthoring.Proofs.Value.Writable

/-!
# Commands that come to an end

A command ends with exit code 0 or 1 whatever is wrong with the file it reads, as long as what is
wrong keeps the file from being loaded or a selection from being complete. A file that is loaded may
still hold values that the command cannot work with, and then the run ends in a fault.
`Command.Handles` says what each command demands of a file that is loaded, and `ends_iff_handles`
that the run comes to an end exactly if the demand is met.
-/

namespace PolicyAuthoring

/-! ## Files of any shape -/

/-- Steps that load or refuse can follow each other. -/
theorem LoadsOrRefuses.bind {α β : Type} {x : Except Fault α} {f : α → Except Fault β}
    (hx : LoadsOrRefuses x) (hf : ∀ a, LoadsOrRefuses (f a)) : LoadsOrRefuses (x >>= f) := by
  obtain ⟨a, rfl⟩ | ⟨cause, rfl⟩ := hx
  · exact hf a
  · exact .inr ⟨cause, rfl⟩

namespace Files

variable {files : Files} {path text : String} {v : Value}

/-- A file whose text is a value holds a mapping, or is refused. -/
theorem loadsOrRefuses_readMapping (hfile : files.lookup path = some text)
    (hread : Yaml.read text = .ok v) : LoadsOrRefuses (files.readMapping path) := by
  rw [readMapping, hfile, Option.map_some, hread]
  cases v with
  | null | mapping => exact .inl ⟨_, rfl⟩
  | _ => exact .inr ⟨_, rfl⟩

/-- A file whose text is a value is loaded as a selection, or is refused. -/
theorem loadsOrRefuses_loadSelection (hfile : files.lookup path = some text)
    (hread : Yaml.read text = .ok v) : LoadsOrRefuses (files.loadSelection path) := by
  refine (loadsOrRefuses_readMapping hfile hread).bind fun mapping => ?_
  split
  · exact .inl ⟨_, rfl⟩
  · exact .inr ⟨_, rfl⟩

/-- A file whose text is a value is loaded as a document, or is refused. -/
theorem loadsOrRefuses_loadDocument (hfile : files.lookup path = some text)
    (hread : Yaml.read text = .ok v) : LoadsOrRefuses (files.loadDocument path) := by
  refine (loadsOrRefuses_readMapping hfile hread).bind fun mapping => ?_
  split
  · exact .inl ⟨_, rfl⟩
  · exact .inr ⟨_, rfl⟩

end Files

/-! ## Steps that come to an end -/

namespace CommandLine

open Run

variable {α : Type} {s : Surroundings} {w : World} {f : α → Run Nat}

/-- The stream for output takes the line that refuses a file. -/
def Surroundings.TakesRefusal (s : Surroundings) (cause : LoadFault) : Prop :=
  s.Takes (failureLine cause.message ++ "\n")

/-- A file that is loaded or refused is dealt with if the refusal can be printed and what is loaded
is dealt with. -/
theorem completes_answering_load {read : Files → Except Fault α}
    (hread : LoadsOrRefuses (read w.files)) :
    (answering s (load read >>= f)).Completes w ↔
      (∀ cause, read w.files = .error (.load cause) → s.TakesRefusal cause) ∧
        ∀ a, read w.files = .ok a → (answering s (f a)).Completes w := by
  obtain ⟨a, ha⟩ | ⟨cause, hcause⟩ := hread
  · rw [completes_answering_of_ok (load_ok ha), ha]
    refine ⟨fun h => ⟨fun _ hb => ?_, fun _ hb => ?_⟩, fun h => h.2 a rfl⟩ <;> cases hb
    exact h
  · have herror := bind_of_error (f := f) (load_error hcause)
    rw [Completes, answering_of_error herror, hcause]
    change (∃ exitCode after, (s.printLine (failureLine cause.message) >>= fun _ => pure 1) w =
      .ok exitCode after) ↔ _
    constructor
    · rintro ⟨exitCode, after, hline⟩
      obtain ⟨_, between, hprinted, -⟩ := bind_eq_ok hline
      refine ⟨fun _ hother => ?_, fun _ hother => by cases hother⟩
      cases hother
      refine Classical.byContradiction fun htakes => ?_
      obtain ⟨code, after, -, hcode⟩ := Surroundings.printLine_of_not_takes htakes w
      cases hprinted.symm.trans hcode
    · exact fun h => ⟨1, _, bind_of_ok (Surroundings.printLine_of_takes (h.1 cause rfl))⟩

/-- What has a result exactly under a condition, and a fault of a value otherwise, has to fulfil the
condition. -/
theorem completes_answering_lift {x : Except Fault α} {p : Prop}
    (hx : Guarded x p fun fault => ∃ cause, fault = .shape cause) :
    (answering s (liftM x >>= f)).Completes w ↔
      p ∧ ∀ a, x = .ok a → (answering s (f a)).Completes w := by
  obtain ⟨hp, a, ha⟩ | ⟨hp, _, ⟨cause, rfl⟩, hfault⟩ := hx.ok_or_error
  · rw [completes_answering_of_ok (lift_ok ha), ha]
    exact ⟨fun h => ⟨hp, fun _ hb => by cases hb; exact h⟩, fun h => h.2 a rfl⟩
  · exact iff_of_false (not_completes_answering (lift_error hfault) nofun) fun h => hp h.1

/-- The same for a step on values. -/
theorem completes_answering_lift_shape {x : Except ShapeFault α} {p : Prop} {q : ShapeFault → Prop}
    (hx : Guarded x p q) :
    (answering s (liftM x >>= f)).Completes w ↔
      p ∧ ∀ a, x = .ok a → (answering s (f a)).Completes w := by
  refine (completes_answering_lift hx.lift).trans (and_congr_right' ?_)
  exact forall_congr' fun a => imp_congr_left liftM_eq_ok_iff

/-- A line has to be taken by the stream for output. -/
theorem completes_answering_printLine {line : CodePoints} {f : Unit → Run Nat}
    (hf : ∀ w, (answering s (f ())).Completes w) :
    (answering s (s.printLine line >>= f)).Completes w ↔ s.Takes (line ++ "\n") := by
  by_cases htakes : s.Takes (line ++ "\n")
  · rw [completes_answering_of_ok (Surroundings.printLine_of_takes htakes)]
    exact iff_of_true (hf _) htakes
  · obtain ⟨code, after, -, hcode⟩ := Surroundings.printLine_of_not_takes htakes w
    exact iff_of_false (not_completes_answering hcode nofun) htakes

/-- Lines have to be taken by the stream for output, one and all. -/
theorem completes_answering_lines {lines : List CodePoints} {exitCode : Nat} :
    (answering s (lines.forM s.printLine >>= fun _ => pure exitCode)).Completes w ↔
      ∀ line ∈ lines, s.Takes (line ++ "\n") := by
  induction lines generalizing w with
  | nil => exact iff_of_true (completes_answering_pure exitCode) nofun
  | cons line lines ih =>
    rw [List.forall_mem_cons]
    by_cases htakes : s.Takes (line ++ "\n")
    · have hline := bind_of_ok (f := fun _ => lines.forM s.printLine)
        (Surroundings.printLine_of_takes (w := w) htakes)
      rw [and_iff_right htakes, ← ih]
      exact completes_answering_congr (bind_congr hline)
    · obtain ⟨code, after, -, hcode⟩ := Surroundings.printLine_of_not_takes htakes w
      have hline := bind_of_error (f := fun _ => lines.forM s.printLine) hcode
      exact iff_of_false (not_completes_answering hline nofun) fun h => htakes h.1

/-! ## Demands of commands -/

variable {request : Request} {r : Registry}

/-- A run that comes to an end: it has an exit code, which is 0 or 1. -/
def Invocation.Ends (s : Surroundings) (i : Invocation) : Prop :=
  ∃ exitCode w, i.outcome s = .ok exitCode w ∧ (exitCode = 0 ∨ exitCode = 1)

/-- A run comes to an end if it has an exit code. -/
theorem Request.ends_iff :
    (Invocation.request request).Ends s ↔ (request.run s).Completes { files := s.files } :=
  ⟨fun ⟨exitCode, w, h, _⟩ => ⟨exitCode, w, h⟩,
    fun ⟨exitCode, w, h⟩ => ⟨exitCode, w, h, request.exitsPlainly_run s _ _ _ h⟩⟩

/-- A selection whose document can be stored: it can be compiled, the rule identifiers have a stem,
and JSON has a form for the document. -/
structure CanStore (r : Registry) (stem : Stem) (selection : Selection) : Prop where
  /-- The selection can be compiled. -/
  compilable : selection.Compilable
  /-- The stem of the rule identifiers has a text. -/
  stem_text : ∃ start, stem.text = .ok start
  /-- JSON has a form for the document. -/
  writable : ∀ start, stem.text = .ok start → (r.document start selection).toValue.writable = true

/-- A document that can be shown as a selection: it can be reopened, and JSON has a form for the
selection if JSON is asked for. -/
structure CanShow (c : Catalog) (json : Bool) (d : Document) : Prop where
  /-- The document can be reopened. -/
  reopen : c.CanReopen d
  /-- JSON has a form for the selection if JSON is asked for. -/
  writable : json = true → ∀ selection, c.hydrate d = .ok selection →
    selection.toValue.writable = true

namespace Surroundings

/-- A document can be put out: its JSON text can be printed, or the file can be opened and the
report printed. -/
def CanDeliver (s : Surroundings) (d : Document) (json : String) : Option String → Prop
  | none => s.Takes (json ++ "\n")
  | some path => s.writable path = true ∧ s.Takes (reportLine d.rules.length path ++ "\n")

/-- A file is dealt with: the line that refuses it can be printed, or what is loaded meets a
demand. -/
def CanTake (s : Surroundings) (loaded : Except Fault α) (demand : α → Prop) : Prop :=
  (∀ cause, loaded = .error (.load cause) → s.TakesRefusal cause) ∧
    ∀ a, loaded = .ok a → demand a

end Surroundings

/-- What a command demands of the file it reads, of the stream for output and of the path it writes
to. A selection that lacks a part is refused by a compile before anything is demanded of it. -/
def Request.Handles (s : Surroundings) (request : Request) (r : Registry) : Prop :=
  let settings := s.settings request
  let stem := s.stem settings.strategy
  match request.command with
  | .compile path output => s.CanTake (s.files.loadSelection path) fun selection =>
      (selection.isComplete = false → s.Takes (incompleteLine selection.missingParts ++ "\n")) ∧
      (selection.isComplete = true → CanStore r stem selection ∧
        ∀ d json, r.compile stem selection = .ok d → d.toJson = .ok json →
          s.CanDeliver d json output)
  | .render path => s.CanTake (s.files.loadSelection path) fun selection =>
      r.CanRender selection ∧ ∀ text, r.sentence selection = .ok text → s.Takes (text ++ "\n")
  | .explain path rule => s.CanTake (s.files.loadDocument path) fun d =>
      ∀ line ∈ (explanationLines d rule).2, s.Takes (line ++ "\n")
  | .hydrate path json => s.CanTake (s.files.loadDocument path) fun d =>
      CanShow r.catalog json d ∧ ∀ selection text, r.catalog.hydrate d = .ok selection →
        reopened selection json = .ok text → s.Takes text
  | .summary path short maxLength => s.CanTake (s.files.loadDocument path) fun d =>
      r.CanSummarize d ∧ ∀ text,
        (if short then r.shortSummary (maxLength.getD settings.summaryMaxLength) d
          else r.summary d) = .ok text → s.Takes (text ++ "\n")
  | .config => True

variable {stem : Stem} {settings : Settings} {path text : String} {v : Value}

/-- Putting out a document comes to an end exactly if it can be put out. -/
theorem completes_deliver_iff {d : Document} {json : String} {output : Option String} :
    (answering s (do deliver s d json output; return 0)).Completes w ↔
      s.CanDeliver d json output := by
  have hdone (w : World) : (answering s (pure 0)).Completes w := completes_answering_pure 0
  cases output with
  | none => exact completes_answering_printLine hdone
  | some path =>
    rw [Surroundings.CanDeliver]
    cases hwritable : s.writable path with
    | false =>
      exact iff_of_false (not_completes_answering (deliver_of_not_writable hwritable) nofun)
        fun h => Bool.false_ne_true h.1
    | true =>
      rw [and_iff_right rfl]
      exact (completes_answering_congr (bind_congr (deliver_of_writable hwritable))).trans
        (completes_answering_printLine hdone)

/-- A compile of a complete selection goes on until a value gets in its way. -/
theorem compileTo_of_isComplete {selection : Selection} {output : Option String}
    (hcomplete : selection.isComplete = true) : compileTo s r stem selection output = (do
      let d ← r.compile stem selection
      let json ← d.toJson
      deliver s d json output
      return 0) := by
  rw [compileTo]
  split
  next missing hmissing =>
    obtain ⟨cause, hcause⟩ := (Registry.guarded_compile hcomplete).fault hmissing
    cases hcause
  next => rfl

/-- A compiled document is put out as JSON exactly if it can be written and put out. -/
theorem completes_toJson_iff {selection : Selection} {d : Document} {output : Option String}
    (hd : r.compile stem selection = .ok d) :
    (answering s (do
      let json ← d.toJson
      deliver s d json output
      return 0)).Completes w ↔
      (∀ start, stem.text = .ok start → (r.document start selection).toValue.writable = true) ∧
        ∀ json, d.toJson = .ok json → s.CanDeliver d json output := by
  -- A compile that succeeds has one document only, so it is the one that must be writable.
  have hwrite : d.toValue.writable = true ↔ ∀ start, stem.text = .ok start →
      (r.document start selection).toValue.writable = true := by
    obtain ⟨-, start, hstart, rfl⟩ := Registry.compile_eq_ok_iff.mp hd
    exact ⟨fun h start' h' => by cases hstart.symm.trans h'; exact h, fun h => h start hstart⟩
  refine (completes_answering_lift_shape ((Value.guarded_write d.toValue).congr hwrite)).trans ?_
  exact and_congr_right' (forall_congr' fun json => imp_congr_right fun _ => completes_deliver_iff)

/-- A compile of a selection comes to an end exactly if the line about missing parts can be printed,
or the document can be stored and put out. -/
theorem completes_compileTo_iff {selection : Selection} {output : Option String} :
    (answering s (compileTo s r stem selection output)).Completes w ↔
      (selection.isComplete = false → s.Takes (incompleteLine selection.missingParts ++ "\n")) ∧
      (selection.isComplete = true → CanStore r stem selection ∧
        ∀ d json, r.compile stem selection = .ok d → d.toJson = .ok json →
          s.CanDeliver d json output) := by
  cases hcomplete : selection.isComplete with
  | false =>
    rw [compileTo, Registry.compile_of_not_isComplete hcomplete]
    refine (completes_answering_printLine fun w => completes_answering_pure 1).trans ?_
    exact ⟨fun h => ⟨fun _ => h, fun hother => by cases hother⟩, fun h => h.1 rfl⟩
  | true =>
    rw [compileTo_of_isComplete hcomplete,
      completes_answering_lift (Registry.guarded_compile hcomplete)]
    constructor
    · rintro ⟨⟨hcompilable, start, hstart⟩, hputs⟩
      have hd := Registry.compile_eq_document (r := r) hcompilable hstart
      refine ⟨fun hother => absurd hother Bool.noConfusion,
        fun _ => ⟨⟨hcompilable, ⟨start, hstart⟩, ?_⟩, fun d json hd => ?_⟩⟩
      · exact ((completes_toJson_iff hd).mp (hputs _ hd)).1
      · exact ((completes_toJson_iff hd).mp (hputs d hd)).2 json
    · rintro ⟨-, h⟩
      obtain ⟨⟨hcompilable, hstem, hwritable⟩, hdelivers⟩ := h rfl
      exact ⟨⟨hcompilable, hstem⟩, fun d hd =>
        (completes_toJson_iff hd).mpr ⟨hwritable, fun json => hdelivers d json hd⟩⟩

/-- A selection that was reopened is printed exactly if JSON has a form for it, if JSON is asked
for, and its text can be printed. -/
theorem completes_reopened_iff {selection : Selection} {json : Bool} :
    (answering s (do
      s.print (← reopened selection json)
      return 0)).Completes w ↔
      (json = true → selection.toValue.writable = true) ∧
        ∀ text, reopened selection json = .ok text → s.Takes text := by
  have hreopened : Guarded (reopened selection json)
      (json = true → selection.toValue.writable = true) ShapeFault.IsKindFault := by
    rw [reopened]
    cases json with
    | false => exact (Guarded.ok _).congr (iff_of_true trivial nofun)
    | true =>
      exact (Value.guarded_write selection.toValue).bind_ok.congr
        ⟨fun hwritable _ => hwritable, fun hwritable => hwritable rfl⟩
  refine (completes_answering_lift_shape hreopened).trans (and_congr_right' ?_)
  refine forall_congr' fun text => imp_congr_right fun _ => completes_answering_print.trans ?_
  exact and_iff_left (completes_answering_pure 0)

/-- A compile of a complete selection that cannot be compiled does not come to an end. -/
theorem Request.not_ends_of_not_compilable {selection : Selection} {output : Option String}
    (hcommand : request.command = .compile path output)
    (hregistry : request.registry s.files = .ok r)
    (hload : s.files.loadSelection path = .ok selection) (hcomplete : selection.isComplete = true)
    (hnot : ¬ selection.Compilable) : ¬ (Invocation.request request).Ends s := by
  rw [ends_iff, run, completes_answering_of_ok (load_ok hregistry), perform_compile hcommand,
    completes_answering_of_ok (load_ok hload), completes_compileTo_iff]
  exact fun h => hnot (h.2 hcomplete).1.compilable

/-- Reopening a document comes to an end exactly if it can be shown as a selection, in a text that
can be printed. -/
theorem completes_hydrate_iff {d : Document} {json : Bool} :
    (answering s (do
      let selection ← r.catalog.hydrate d
      s.print (← reopened selection json)
      return 0)).Completes w ↔
      CanShow r.catalog json d ∧ ∀ selection text, r.catalog.hydrate d = .ok selection →
        reopened selection json = .ok text → s.Takes text := by
  refine (completes_answering_lift_shape (r.catalog.guarded_hydrate d)).trans ?_
  constructor
  · rintro ⟨hreopen, hprints⟩
    have hprinted selection (h : r.catalog.hydrate d = .ok selection) :=
      completes_reopened_iff.mp (hprints selection h)
    exact ⟨⟨hreopen, fun hjson selection h => (hprinted selection h).1 hjson⟩,
      fun selection text h => (hprinted selection h).2 text⟩
  · rintro ⟨⟨hreopen, hwritable⟩, htakes⟩
    exact ⟨hreopen, fun selection h => completes_reopened_iff.mpr
      ⟨fun hjson => hwritable hjson selection h, fun text => htakes selection text h⟩⟩

/-- A run of a command, without a catalog or with one that is loaded, on a file whose text is a
value comes to an end exactly if the demands of the command are met: on the file, on the stream for
output, and on the path to write to. -/
theorem ends_iff_handles {args : List String}
    (hargs : Invocation.ofArguments args = .request request)
    (hregistry : request.registry s.files = .ok r) (hinput : request.command.input? = some path)
    (hfile : s.files.lookup path = some text) (hread : Yaml.read text = .ok v) :
    (Invocation.ofArguments args).Ends s ↔ request.Handles s r := by
  -- Whatever the file holds, it is loaded or refused, and what is refused demands a line only.
  have hselection := Files.loadsOrRefuses_loadSelection hfile hread
  have hdocument := Files.loadsOrRefuses_loadDocument hfile hread
  have hdone (w : World) : (answering s (pure 0)).Completes w := completes_answering_pure 0
  rw [hargs, Request.ends_iff, Request.run, completes_answering_of_ok (load_ok hregistry),
    Request.perform, Request.Handles]
  cases hcommand : request.command <;> rw [hcommand] at hinput <;> cases hinput
  case compile output =>
    refine (completes_answering_load hselection).trans (and_congr_right' ?_)
    exact forall_congr' fun selection => imp_congr_right fun _ => completes_compileTo_iff
  case render =>
    refine (completes_answering_load hselection).trans (and_congr_right' ?_)
    refine forall_congr' fun selection => imp_congr_right fun _ => ?_
    refine (completes_answering_lift_shape (r.guarded_sentence selection)).trans ?_
    exact and_congr_right' (forall_congr' fun text => imp_congr_right fun _ =>
      completes_answering_printLine hdone)
  case explain rule =>
    refine (completes_answering_load hdocument).trans (and_congr_right' ?_)
    exact forall_congr' fun d => imp_congr_right fun _ => completes_answering_lines
  case hydrate json =>
    refine (completes_answering_load hdocument).trans (and_congr_right' ?_)
    exact forall_congr' fun d => imp_congr_right fun _ => completes_hydrate_iff
  case summary short maxLength =>
    refine (completes_answering_load hdocument).trans (and_congr_right' ?_)
    refine forall_congr' fun d => imp_congr_right fun _ => ?_
    cases short with
    | true =>
      refine (completes_answering_lift_shape (r.guarded_shortSummary _ d)).trans ?_
      exact and_congr_right' (forall_congr' fun text => imp_congr_right fun _ =>
        completes_answering_printLine hdone)
    | false =>
      refine (completes_answering_lift_shape (r.guarded_summary d)).trans ?_
      exact and_congr_right' (forall_congr' fun text => imp_congr_right fun _ =>
        completes_answering_printLine hdone)

/-- What the program finds when the only file holds a selection with a number for a name. -/
def numberedFile : Surroundings := oneFile (readingText "7")

/-- The fields of the selection are what is read in the file. -/
theorem read_numberedFile : Yaml.read (readingText "7" ++ "\n") = .ok (readingFields (.int 7)) :=
  (isJson_readingFields (.int 7)).read_write (by decide +kernel) (by rfl)

/-- The selection with a number for a name is loaded. -/
theorem loadSelection_numberedFile :
    numberedFile.files.loadSelection "policy.json" = .ok (readingSelection (.int 7)) := by
  rw [Files.loadSelection, numberedFile, readMapping_oneFile read_numberedFile]
  rfl

/-- A number for a name is no matter for a review sentence, but a compile does not come to an end.
-/
theorem ends_iff_handles_numbered :
    (Invocation.ofArguments ["render", "policy.json"]).Ends numberedFile ∧
      ¬ (Invocation.ofArguments ["compile", "policy.json"]).Ends numberedFile := by
  have hrender : Invocation.ofArguments ["render", "policy.json"] =
      .request ⟨none, false, .render "policy.json"⟩ := by rfl
  have hcompile : Invocation.ofArguments ["compile", "policy.json"] =
      .request ⟨none, false, .compile "policy.json" none⟩ := by rfl
  have hfile : numberedFile.files.lookup "policy.json" = some (readingText "7" ++ "\n") := rfl
  rw [ends_iff_handles hrender rfl rfl hfile read_numberedFile,
    ends_iff_handles hcompile rfl rfl hfile read_numberedFile]
  constructor
  · refine ⟨fun cause hcause => ?_, fun selection hload => ?_⟩
    · cases loadSelection_numberedFile.symm.trans hcause
    · cases loadSelection_numberedFile.symm.trans hload
      refine ⟨⟨rfl, nofun, nofun, ?_, ⟨?_, ?_⟩, fun h => absurd rfl h⟩, fun text htext => ?_⟩
      · exact List.forall_mem_singleton.mpr ⟨rfl, rfl⟩
      · exact List.forall_mem_singleton.mpr rfl
      · exact fun hlength => absurd hlength (by decide)
      · have hsentence : Registry.sentence {} (readingSelection (.int 7)) =
            .ok "This policy ALLOWS clerk to perform read actions on file." :=
          eq_ok_of_toOption_eq_some (by decide +kernel)
        cases hsentence.symm.trans htext
        exact Surroundings.takes_append.mpr ⟨Surroundings.takes_codes_utf8 rfl _,
          Surroundings.takes_codes_utf8 rfl _⟩
  · intro h
    obtain ⟨-, hstores⟩ := h.2 _ loadSelection_numberedFile
    cases (hstores rfl).1.compilable.name_text

/-- Not every run on a file whose text is a value comes to an end, even with a stream for output
that takes every character and with paths that can all be written to: a compile of a selection with
a number for a name does not. -/
theorem not_forall_ends :
    ¬ ∀ (args : List String) (s : Surroundings) (request : Request) (r : Registry)
      (path text : String) (v : Value), Invocation.ofArguments args = .request request →
      request.registry s.files = .ok r → request.command.input? = some path →
      s.files.lookup path = some text → Yaml.read text = .ok v →
      (∀ c : Char, s.encodes c.toNat = true) → (∀ path, s.writable path = true) →
      (Invocation.ofArguments args).Ends s := by
  intro h
  have hargs : Invocation.ofArguments ["compile", "policy.json"] =
      .request ⟨none, false, .compile "policy.json" none⟩ := by rfl
  have hfile : numberedFile.files.lookup "policy.json" = some (readingText "7" ++ "\n") := rfl
  have hencodes (c : Char) : numberedFile.encodes c.toNat = true := decide_eq_true c.valid
  have hends := h _ numberedFile _ {} "policy.json" _ _ hargs rfl rfl hfile read_numberedFile
    hencodes fun _ => rfl
  have hnot : ¬ (readingSelection (.int 7)).Compilable := fun hcompilable => by
    cases hcompilable.name_text
  rw [hargs] at hends
  exact Request.not_ends_of_not_compilable (r := {}) rfl rfl loadSelection_numberedFile rfl hnot
    hends

end CommandLine

end PolicyAuthoring
