import PolicyAuthoring.Proofs.CommandLine.Run
import PolicyAuthoring.Proofs.Compilation
import PolicyAuthoring.Proofs.Yaml.Portable

/-!
# Compiling to a file

A compile that is given a file to write to either does everything or leaves the files alone. All
that can go wrong, from loading the catalog to writing JSON, comes before the file is written, so it
does not matter whether the file is one of those that were read (`outcome_compile_output`). No other
command line changes a file (`Invocation.filesAfter_eq`).
-/

namespace PolicyAuthoring.CommandLine

/-! ## Command lines -/

/-- A name that no option begins like. -/
def IsOperand (name : String) : Prop := name.toList.head? ≠ some '-'

instance : DecidablePred IsOperand := fun _ => inferInstanceAs (Decidable (_ ≠ _))

/-- A name that no option begins like is an operand. -/
theorem IsOperand.ofArgument_eq {name : String} (h : IsOperand name) (switches : List Switch) :
    Form.ofArgument switches name.toList = .operand := by
  rw [IsOperand] at h
  rw [Form.ofArgument.eq_def]
  split <;> simp_all

/-- A name that no option begins like is no double dash. -/
theorem IsOperand.ne_doubleDash {name : String} (h : IsOperand name) : name ≠ "--" := by
  rintro rfl
  exact h rfl

/-- An operand comes before what else there is. -/
theorem items_operand {name : String} (h : IsOperand name) (switches : List Switch)
    {rest : List String} (hrest : rest ≠ ["--"]) :
    items switches (name :: rest) = .operand name rest :: items switches rest := by
  rw [items, if_neg h.ne_doubleDash, h.ofArgument_eq, if_neg hrest]

/-- The arguments that name a catalog, if there is one to name. -/
def catalogArguments (catalog : Option String) : List String :=
  catalog.elim [] fun path => ["--catalog", path]

variable {catalog : Option String} {selection output : String}

/-- The arguments after the word for compiling are read as a selection and an output. -/
theorem reading_compile (hselection : IsOperand selection) (houtput : IsOperand output) :
    Reading.ofItems (items [helpSwitch, ⟨some 'o', "output", .value (some ∘ .output)⟩]
      [selection, "-o", output]) = .parts [.output output] [selection] := by
  -- The option waits for its value, and takes what no option begins like.
  have hvalue : items [helpSwitch, ⟨some 'o', "output", .value (some ∘ .output)⟩] ["-o", output] =
      [.choice (.output output)] := by
    have hform : Form.ofArgument [helpSwitch, ⟨some 'o', "output", .value (some ∘ .output)⟩]
        "-o".toList = .awaiting [] (some ∘ .output) := by rfl
    rw [items, if_neg (by decide), hform]
    simp only [houtput.ofArgument_eq]
    rfl
  rw [items_operand hselection _ (by simp), hvalue]
  rfl

/-- The command line that compiles a selection to a file, with a catalog if there is one. -/
theorem ofArguments_compile (hcatalog : ∀ path ∈ catalog, IsOperand path)
    (hselection : IsOperand selection) (houtput : IsOperand output) (hne : output ≠ "") :
    Invocation.ofArguments (catalogArguments catalog ++ ["compile", selection, "-o", output]) =
      .request ⟨catalog.filter (· ≠ ""), false, .compile selection (some output)⟩ := by
  -- From the word of the command on, a catalog makes no difference.
  have hword (choices : List Choice) : Invocation.ofItems choices
      (items programSwitches ["compile", selection, "-o", output]) =
        .request ⟨catalogChoice choices, verboseChoice choices,
          .compile selection (some output)⟩ := by
    rw [items_operand (by simp [IsOperand]) _ (by simp), Invocation.ofItems]
    simp only [usages, List.find?, decide_true, Usage.invocation,
      reading_compile hselection houtput, outputChoice]
    simp [hne]
  cases catalog with
  | none => exact hword []
  | some path =>
    have hpath : IsOperand path := hcatalog path rfl
    have hform : Form.ofArgument programSwitches "--catalog".toList =
        .awaiting [] (some ∘ .catalog) := by rfl
    have hitems : items programSwitches ("--catalog" :: path ::
        ["compile", selection, "-o", output]) = .choice (.catalog path) ::
          items programSwitches ["compile", selection, "-o", output] := by
      rw [items, if_neg (by decide), hform]
      simp only [hpath.ofArgument_eq]
      rfl
    calc Invocation.ofArguments (catalogArguments (some path) ++
          ["compile", selection, "-o", output])
        = Invocation.ofItems [.catalog path]
            (items programSwitches ["compile", selection, "-o", output]) := by
          rw [Invocation.ofArguments]
          exact congrArg (Invocation.ofItems []) hitems
      _ = _ := hword _

/-! ## Before a file is opened -/

section Before

variable {s : Surroundings} {w w' : World} {x y : Run Nat}

/-- A run that ends without having done what was asked for, and leaves the files as they were. -/
structure Run.Refuses (x : Run Nat) (w : World) : Prop where
  /-- The files are as they were. -/
  files : (left (x w)).files = w.files
  /-- The exit code, if there is one, does not say that anything was done. -/
  exitCode : ∀ after, x w ≠ .ok 0 after

namespace Run.Refuses

/-- A run refuses if it comes to the same as one that refuses. -/
theorem congr (hy : y.Refuses w) (h : x w = y w) : x.Refuses w := by
  obtain ⟨hfiles, hcode⟩ := hy
  rw [← h] at hfiles
  exact ⟨hfiles, fun after => h ▸ hcode after⟩

/-- A run refuses with a fault that leaves nothing behind. -/
theorem of_error {fault : RunFault} (h : x w = .error fault w) : x.Refuses w := by
  refine ⟨?_, fun after hafter => ?_⟩
  · rw [h]
    rfl
  · cases h.symm.trans hafter

/-- A run refuses with a line and exit code 1. -/
theorem line (s : Surroundings) (text : CodePoints) (w : World) :
    Refuses (do s.printLine text; return 1) w := by
  refine ⟨((KeepsFiles.printLine s text).bind fun _ => KeepsFiles.pure 1) w, fun after hafter => ?_⟩
  obtain ⟨_, between, -, hcode⟩ := bind_eq_ok hafter
  cases hcode

/-- A refusal stays one when faults are answered. -/
theorem answering (h : x.Refuses w) (s : Surroundings) : (answering s x).Refuses w := by
  obtain ⟨hfiles, hcode⟩ := h
  cases hx : x w with
  | ok exitCode after =>
    rw [hx] at hfiles hcode
    refine ⟨?_, ?_⟩ <;> rw [answering_of_ok hx]
    · exact hfiles
    · exact hcode
  | error fault after =>
    rw [hx] at hfiles
    -- The answer to a fault is a line and exit code 1, or the fault itself.
    have hanswer : (answer s fault).Refuses after := by
      rw [answer.eq_def]
      split
      · exact line s _ after
      · exact of_error rfl
    refine ⟨?_, ?_⟩ <;> rw [answering_of_error hx]
    · exact hanswer.files.trans hfiles
    · exact hanswer.exitCode

end Run.Refuses

end Before

/-- A compile that goes well until its document is put out: the registry and the selection are
loaded, the selection is compiled, and the document is written as JSON. -/
structure Compiles (s : Surroundings) (request : Request) (path : String) (selection : Selection)
    (d : Document) (json : String) : Prop where
  /-- The selection is loaded. -/
  load : s.files.loadSelection path = .ok selection
  /-- With the registry that is loaded, it is compiled to the document. -/
  compile : ∃ r, request.registry s.files = .ok r ∧
    r.compile (s.stem (s.settings request).strategy) selection = .ok d
  /-- The document is written as JSON. -/
  write : d.toJson = .ok json

/-- A compile that goes well gives one rule for each pairing of an action with a resource. -/
theorem Compiles.length_rules {s : Surroundings} {request : Request} {path json : String}
    {selection : Selection} {d : Document} (h : Compiles s request path selection d json) :
    d.rules.length = selection.actions.length * selection.resources.length := by
  obtain ⟨r, -, hd⟩ := h.compile
  obtain ⟨-, start, -, rfl⟩ := Registry.compile_eq_ok_iff.mp hd
  exact r.length_rules start selection

namespace Request

variable {s : Surroundings} {request : Request} {path : String} {output : Option String}
  {w : World}

/-- A compile loads a selection and puts out its document. -/
theorem perform_compile (hcommand : request.command = .compile path output) (r : Registry) :
    request.perform s r = (do
      let selection ← Run.load fun files => files.loadSelection path
      compileTo s r (s.stem (s.settings request).strategy) selection output) := by
  rw [perform, hcommand]

/-- A compile that goes well comes down to putting out its document. -/
theorem run_of_compiles (hcommand : request.command = .compile path output)
    {selection : Selection} {d : Document} {json : String}
    (h : Compiles s request path selection d json) (hw : w.files = s.files) :
    request.run s w = answering s (do deliver s d json output; return 0) w := by
  obtain ⟨hload, ⟨r, hr, hd⟩, hjson⟩ := h
  rw [← hw] at hload hr
  refine answering_congr ?_
  rw [Run.bind_of_ok (Run.load_ok hr), perform_compile hcommand,
    Run.bind_of_ok (Run.load_ok hload), compileTo, hd]
  exact (Run.bind_of_ok (Run.lift_ok rfl)).trans
    (Run.bind_of_ok (Run.lift_ok (liftM_eq_ok_iff.mpr hjson)))

/-- A compile that does not go well refuses before it opens a file: whatever is wrong, from the
catalog to the JSON text, is found before. -/
theorem refuses_of_not_compiles (hcommand : request.command = .compile path output)
    (hw : w.files = s.files) (h : ¬ ∃ selection d json, Compiles s request path selection d json) :
    (request.run s).Refuses w := by
  refine Run.Refuses.answering ?_ s
  cases hr : request.registry w.files with
  | error fault => exact .of_error (Run.bind_of_error (Run.load_error hr))
  | ok r =>
    refine Run.Refuses.congr ?_ (Run.bind_of_ok (Run.load_ok hr))
    rw [perform_compile hcommand]
    cases hload : w.files.loadSelection path with
    | error fault => exact .of_error (Run.bind_of_error (Run.load_error hload))
    | ok selection =>
      refine Run.Refuses.congr ?_ (Run.bind_of_ok (Run.load_ok hload))
      rw [compileTo]
      split
      next missing => exact .line s _ w
      next result hincomplete =>
        cases hd : r.compile (s.stem (s.settings request).strategy) selection with
        | error fault => exact .of_error (Run.bind_of_error (Run.lift_error rfl))
        | ok d =>
          refine Run.Refuses.congr ?_ (Run.bind_of_ok (Run.lift_ok rfl))
          cases hjson : d.toJson with
          | error cause =>
            have hlift : (liftM (.error cause : Except ShapeFault String) :
                Except Fault String) = .error (.shape cause) := rfl
            exact .of_error (Run.bind_of_error (Run.lift_error hlift))
          | ok json =>
            rw [hw] at hr hload
            exact absurd ⟨selection, d, json, hload, ⟨r, hr, hd⟩, hjson⟩ h

end Request

/-! ## Writing the file -/

section Deliver

variable {s : Surroundings} {d : Document} {json : String} {w : World}

/-- Nothing is put out to a path that cannot be written to. -/
theorem deliver_of_not_writable (h : s.writable output = false) :
    deliver s d json (some output) w = .error (.unwritable output) w :=
  Run.bind_of_error (Surroundings.openFile_of_not_writable h)

/-- A document that is put out to a path that can be written to is in the file before the report is
printed. -/
theorem deliver_of_writable (h : s.writable output = true) :
    deliver s d json (some output) w = s.printLine (reportLine d.rules.length output)
      { w with files := w.files.write output (json ++ "\n") } := by
  have hwritten : Run.append output (json ++ "\n")
      { w with files := w.files.write output "" } =
      .ok () { w with files := w.files.write output (json ++ "\n") } := by
    exact congrArg (fun files => EStateM.Result.ok () { w with files })
      (Files.append_write_empty w.files output (json ++ "\n"))
  rw [deliver, Run.bind_of_ok (Surroundings.openFile_of_writable h), Run.bind_of_ok hwritten]

end Deliver

/-! ## Runs -/

namespace Invocation

/-- A run that did what was asked for. -/
def Succeeds (s : Surroundings) (i : Invocation) : Prop := ∃ w, i.outcome s = .ok 0 w

/-- The files after a run, however it ends. -/
def filesAfter (s : Surroundings) (i : Invocation) : Files := (left (i.outcome s)).files

end Invocation

/-- A command line that is not one for a compile to a file changes no file, however the run ends. -/
theorem Invocation.filesAfter_eq {s : Surroundings} {i : Invocation}
    (h : ∀ request path output, i = .request request →
      request.command ≠ .compile path (some output)) : i.filesAfter s = s.files := by
  have hrun : (i.run s).KeepsFiles := by
    cases i with
    | help =>
      rw [run]
      exact (Run.KeepsFiles.print s _).bind fun _ => .pure 0
    | nothing =>
      rw [run]
      exact (Run.KeepsFiles.print s _).bind fun _ => .pure 1
    | misuse => exact .pure 2
    | request request => exact request.keepsFiles_run s fun path output => h request path output rfl
  exact hrun { files := s.files }

/-- Files that differ in one file at most, which holds a text afterwards. -/
structure ChangesOnly (before after : Files) (path text : String) : Prop where
  /-- The file holds the text. -/
  lookup_path : after.lookup path = some text
  /-- Every other file is as it was. -/
  lookup_other : ∀ other, other ≠ path → after.lookup other = before.lookup other

/-- What is written to a path changes no other file. -/
theorem changesOnly_write (files : Files) (path text : String) :
    ChangesOnly files (files.write path text) path text :=
  ⟨Files.lookup_write .., fun _ => Files.lookup_write_of_ne files text⟩

section Outcome

variable {s : Surroundings} {request : Request} {args : List String} {path json : String}
  {selection : Selection} {d : Document}

/-- What comes of a compile that goes well but has no path to write to. -/
theorem outcome_of_not_writable (hcommand : request.command = .compile path (some output))
    (h : Compiles s request path selection d json) (hwritable : s.writable output = false) :
    (Invocation.request request).outcome s = .error (.unwritable output) { files := s.files } := by
  rw [Invocation.outcome, Invocation.run, Request.run_of_compiles hcommand h rfl]
  exact answering_of_error (Run.bind_of_error (deliver_of_not_writable hwritable))

/-- What comes of a compile that goes well and has a path to write to: the report is printed if the
stream takes it, and whether or not it does, the document is in the file. -/
theorem outcome_of_writable (hcommand : request.command = .compile path (some output))
    (h : Compiles s request path selection d json) (hwritable : s.writable output = true) :
    let report := reportLine (selection.actions.length * selection.resources.length) output ++ "\n"
    let files := s.files.write output (json ++ "\n")
    (s.Takes report → (Invocation.request request).outcome s = .ok 0 { files, printed := report }) ∧
    (¬ s.Takes report → ∃ code w,
      (Invocation.request request).outcome s = .error (.unprintable code) w ∧ w.files = files) := by
  intro report files
  have hreport : reportLine d.rules.length output ++ "\n" = report := by rw [h.length_rules]
  have houtcome : (Invocation.request request).outcome s =
      answering s (do s.printLine (reportLine d.rules.length output); return 0) { files } := by
    rw [Invocation.outcome, Invocation.run, Request.run_of_compiles hcommand h rfl]
    exact answering_congr (Run.bind_congr (deliver_of_writable hwritable))
  rw [houtcome]
  constructor
  · intro htakes
    rw [← hreport] at htakes ⊢
    exact answering_of_ok (Run.bind_of_ok (Surroundings.printLine_of_takes htakes))
  · intro htakes
    rw [← hreport] at htakes
    obtain ⟨code, after, hfiles, hcode⟩ := Surroundings.printLine_of_not_takes htakes { files }
    exact ⟨code, after, answering_of_error (Run.bind_of_error hcode), hfiles⟩

/-- The report on a compile. -/
def reportOn (selection : Selection) (output : String) : CodePoints :=
  reportLine (selection.actions.length * selection.resources.length) output ++ "\n"

/-- Once the file can be opened it holds the document, whatever becomes of the report. -/
theorem changesOnly_of_compiles (hcommand : request.command = .compile path (some output))
    (h : Compiles s request path selection d json) (hwritable : s.writable output = true) :
    ChangesOnly s.files ((Invocation.request request).filesAfter s) output (json ++ "\n") ∧
      ∀ w, (Invocation.request request).outcome s = .ok 0 w →
        w.printed = reportOn selection output := by
  obtain ⟨htaken, hrefused⟩ := outcome_of_writable hcommand h hwritable
  rw [Invocation.filesAfter]
  by_cases htakes : s.Takes (reportOn selection output)
  · rw [htaken htakes]
    refine ⟨changesOnly_write .., fun w hw => ?_⟩
    cases hw
    rfl
  · obtain ⟨code, w, houtcome, hfiles⟩ := hrefused htakes
    rw [houtcome]
    refine ⟨?_, fun w hw => by cases hw⟩
    rw [left, hfiles]
    exact changesOnly_write ..

/-- A compile to a file succeeds exactly if it goes well, the file can be opened and the report can
be printed. -/
theorem succeeds_iff (hcommand : request.command = .compile path (some output)) :
    (Invocation.request request).Succeeds s ↔
      (∃ selection d json, Compiles s request path selection d json ∧
        s.Takes (reportOn selection output)) ∧ s.writable output = true := by
  constructor
  · rintro ⟨w, hw⟩
    by_cases hgoes : ∃ selection d json, Compiles s request path selection d json
    · obtain ⟨selection, d, json, hcompiles⟩ := hgoes
      cases hwritable : s.writable output with
      | false => cases hw.symm.trans (outcome_of_not_writable hcommand hcompiles hwritable)
      | true =>
        obtain ⟨-, hrefused⟩ := outcome_of_writable hcommand hcompiles hwritable
        refine ⟨⟨selection, d, json, hcompiles, Classical.byContradiction fun htakes => ?_⟩, rfl⟩
        obtain ⟨code, w', houtcome, -⟩ := hrefused htakes
        cases hw.symm.trans houtcome
    · exact absurd hw ((Request.refuses_of_not_compiles hcommand rfl hgoes).exitCode w)
  · rintro ⟨⟨selection, d, json, hcompiles, htakes⟩, hwritable⟩
    exact ⟨_, (outcome_of_writable hcommand hcompiles hwritable).1 htakes⟩

/-- A compile to a file that does not go well, or has a file that cannot be opened, changes no
file. -/
theorem filesAfter_of_no_write (hcommand : request.command = .compile path (some output))
    (h : (¬ ∃ selection d json, Compiles s request path selection d json) ∨
      s.writable output = false) :
    (Invocation.request request).filesAfter s = s.files := by
  by_cases hgoes : ∃ selection d json, Compiles s request path selection d json
  · obtain ⟨selection, d, json, hcompiles⟩ := hgoes
    have hwritable := h.resolve_left fun hnot => hnot ⟨selection, d, json, hcompiles⟩
    rw [Invocation.filesAfter, outcome_of_not_writable hcommand hcompiles hwritable]
    rfl
  · exact (Request.refuses_of_not_compiles hcommand rfl hgoes).files

/-- A compile to a file that ends with exit code 1, or with a fault of an operation, is one that
does not go well. -/
theorem not_compiles_of_outcome (hcommand : request.command = .compile path (some output))
    {w : World} (h : (Invocation.request request).outcome s = .ok 1 w ∨
      ∃ fault, (Invocation.request request).outcome s = .error (.operation fault) w) :
    ¬ ∃ selection d json, Compiles s request path selection d json := by
  rintro ⟨selection, d, json, hcompiles⟩
  -- What goes well ends with exit code 0, or with a fault of opening or of printing.
  cases hwritable : s.writable output with
  | false =>
    rw [outcome_of_not_writable hcommand hcompiles hwritable] at h
    obtain h | ⟨fault, h⟩ := h <;> cases h
  | true =>
    obtain ⟨htaken, hrefused⟩ := outcome_of_writable hcommand hcompiles hwritable
    by_cases htakes : s.Takes (reportOn selection output)
    · rw [htaken htakes] at h
      obtain h | ⟨fault, h⟩ := h <;> cases h
    · obtain ⟨code, w', houtcome, -⟩ := hrefused htakes
      rw [houtcome] at h
      obtain h | ⟨fault, h⟩ := h <;> cases h

/-- A compile that is given a file to write to is all or nothing. It ends with exit code 0 or 1 or
in a fault. With exit code 1, or with a fault of loading, compiling or writing JSON, no file has
changed, and none has if the file cannot be opened: all this comes before the first write. It ends
with exit code 0 exactly if the catalog and the selection are loaded, the selection is compiled, the
document has a JSON text, the file can be opened and the report can be printed. Once it can be
opened, the file holds this text and no other file has changed, whatever becomes of the report,
which gives the number of rules. The file may be one of those that are read. -/
theorem outcome_compile_output (hargs : Invocation.ofArguments args = .request request)
    (hcommand : request.command = .compile path (some output)) :
    let i := Invocation.ofArguments args
    let report (selection : Selection) : CodePoints :=
      "✓ Wrote " ++ decimalText (selection.actions.length * selection.resources.length : Nat) ++
        " rules to " ++ output ++ "\n"
    (∀ exitCode w, i.outcome s = .ok exitCode w → exitCode = 0 ∨ exitCode = 1) ∧
    (∀ w, i.outcome s = .ok 1 w → w.files = s.files) ∧
    (∀ fault w, i.outcome s = .error (.operation fault) w → w.files = s.files) ∧
    ((¬ ∃ selection d json, Compiles s request path selection d json) ∨
      s.writable output = false → i.filesAfter s = s.files) ∧
    (i.Succeeds s ↔
      (∃ selection d json, Compiles s request path selection d json ∧
        s.Takes (report selection)) ∧ s.writable output = true) ∧
    ∀ selection d json, Compiles s request path selection d json → s.writable output = true →
      ChangesOnly s.files (i.filesAfter s) output (json ++ "\n") ∧
      ∀ w, i.outcome s = .ok 0 w → w.printed = report selection := by
  intro i report
  have hi : i = .request request := hargs
  rw [hi]
  have hkept (w : World) (hw : left ((Invocation.request request).outcome s) = w)
      (h : (Invocation.request request).outcome s = .ok 1 w ∨
        ∃ fault, (Invocation.request request).outcome s = .error (.operation fault) w) :
      w.files = s.files := by
    have hfiles := filesAfter_of_no_write hcommand (.inl (not_compiles_of_outcome hcommand h))
    rwa [Invocation.filesAfter, hw] at hfiles
  refine ⟨request.exitsPlainly_run s _, fun w hw => ?_, fun fault w hw => ?_,
    filesAfter_of_no_write hcommand, succeeds_iff hcommand,
    fun selection d json => changesOnly_of_compiles hcommand⟩
  · refine hkept w ?_ (.inl hw)
    rw [hw]
    rfl
  · refine hkept w ?_ (.inr ⟨fault, hw⟩)
    rw [hw]
    rfl

end Outcome

/-- A selection of one action on one resource, with a name. -/
def readingSelection (name : Value) : Selection where
  name
  subject := .text "clerk"
  actions := [.text "read"]
  resources := [.text "file"]

/-- The fields of the selection that a file has to give. -/
def readingFields (name : Value) : Value :=
  .record ["name", "subject", "actions", "resources"]
    [name, .text "clerk", .list [.text "read"], .list [.text "file"]]

/-- The JSON text of these fields, with a JSON text for the name. -/
def readingText (name : String) : String :=
  "\x7b\n  \"name\": " ++ name ++ ",\n  \"subject\": \"clerk\",\n" ++
    "  \"actions\": [\n    \"read\"\n  ],\n  \"resources\": [\n    \"file\"\n  ]\n\x7d"

/-- JSON has a form for the fields if it has one for the name. -/
theorem isJson_readingFields {name : Value} (hname : name.IsJson) :
    (readingFields name).IsJson := by
  refine .record _ (by decide) ?_
  have hlist (word : String) : (Value.list [.text word]).IsJson :=
    .list _ (List.forall_mem_singleton.mpr (.text word))
  rw [List.forall_mem_cons, List.forall_mem_cons, List.forall_mem_cons, List.forall_mem_singleton]
  exact ⟨hname, .text _, hlist _, hlist _⟩

/-- What the program finds when there is only one file, which holds a text. -/
def oneFile (text : String) : Surroundings where
  files := [("policy.json", text ++ "\n")]
  env := []
  clock := .whole 1700000000
  token := 1

/-- A value is read from the only file if it is what is read in the text. -/
theorem readMapping_oneFile {text : String} {entries : Table Value}
    (h : Yaml.read (text ++ "\n") = .ok (.mapping entries)) :
    (oneFile text).files.readMapping "policy.json" = .ok (.mapping entries) := by
  rw [Files.readMapping, oneFile, List.lookup_cons_self, Option.map_some, h]

/-- What the program finds when the selection is in the only file. -/
def readingFile : Surroundings := oneFile (readingText "\"Reading\"")

/-- The same with a stream for output that takes nothing but ASCII. -/
def asciiReading : Surroundings := { readingFile with encodes := fun code => code < 128 }

/-- A request that takes the only file for everything. -/
def inPlace : Request where
  catalog := some "policy.json"
  verbose := false
  command := .compile "policy.json" (some "policy.json")

/-- The arguments for the request. -/
def inPlaceArguments : List String :=
  ["--catalog", "policy.json", "compile", "policy.json", "-o", "policy.json"]

/-- The arguments for the request are understood. -/
theorem ofArguments_inPlace : Invocation.ofArguments inPlaceArguments = .request inPlace := by
  have hoperand : IsOperand "policy.json" := by decide
  have hcatalog : ∀ path ∈ some "policy.json", IsOperand path := by
    rintro _ ⟨⟩
    exact hoperand
  exact ofArguments_compile hcatalog hoperand hoperand (by decide)

/-- The only file can be the catalog and the selection of a compile. -/
theorem exists_compiles_inPlace {s : Surroundings} (hfiles : s.files = readingFile.files)
    (henv : s.env = []) (hclock : s.clock = .whole 1700000000) : ∃ d json,
      Compiles s inPlace "policy.json" (readingSelection (.text "Reading")) d json := by
  have hread : Yaml.read (readingText "\"Reading\"" ++ "\n") =
      .ok (readingFields (.text "Reading")) :=
    (isJson_readingFields (.text "Reading")).read_write (by decide +kernel) (by rfl)
  have hmapping : s.files.readMapping "policy.json" = .ok (readingFields (.text "Reading")) := by
    rw [hfiles]
    exact readMapping_oneFile hread
  have hload : s.files.loadSelection "policy.json" = .ok (readingSelection (.text "Reading")) := by
    rw [Files.loadSelection, hmapping]
    rfl
  -- The fields of a selection define no attribute and no reference.
  have hregistry : inPlace.registry s.files = .ok {} := by
    change s.files.loadRegistry "policy.json" = .ok {}
    rw [Files.loadRegistry, Files.loadCatalog, Files.loadDirectory, hmapping]
    rfl
  have hstem : s.stem (s.settings inPlace).strategy = .timestamp (.whole 1700000000) := by
    rw [Surroundings.settings, henv, ← hclock]
    rfl
  obtain ⟨d, json, hcompile, hjson⟩ : ∃ d json,
      Registry.compile {} (.timestamp (.whole 1700000000)) (readingSelection (.text "Reading")) =
        .ok d ∧ d.toJson = .ok json := ⟨_, _, rfl, rfl⟩
  rw [← hstem] at hcompile
  exact ⟨d, json, hload, ⟨{}, hregistry, hcompile⟩, hjson⟩

/-- The only file can be the catalog, the selection and the output of a compile. A stream that takes
no check mark keeps the report from being printed, and then the document is in the file all the
same. -/
theorem outcome_compile_output_oneFile :
    (Invocation.ofArguments inPlaceArguments).Succeeds readingFile ∧
      (∀ w, (Invocation.ofArguments inPlaceArguments).outcome readingFile = .ok 0 w →
        w.printed = "✓ Wrote 1 rules to policy.json\n") ∧
      ¬ (Invocation.ofArguments inPlaceArguments).Succeeds asciiReading ∧
        ∃ (d : Document) (json : String), d.toJson = .ok json ∧
          ((Invocation.ofArguments inPlaceArguments).filesAfter asciiReading).lookup
            "policy.json" = some (json ++ "\n") := by
  obtain ⟨-, -, -, -, hsucceeds, hwrites⟩ :=
    outcome_compile_output (s := readingFile) ofArguments_inPlace rfl
  obtain ⟨-, -, -, -, hsucceeds', hwrites'⟩ :=
    outcome_compile_output (s := asciiReading) ofArguments_inPlace rfl
  obtain ⟨d, json, hcompiles⟩ := exists_compiles_inPlace (s := readingFile) rfl rfl rfl
  obtain ⟨d', json', hcompiles'⟩ := exists_compiles_inPlace (s := asciiReading) rfl rfl rfl
  refine ⟨hsucceeds.mpr ⟨⟨_, _, _, hcompiles, by decide +kernel⟩, rfl⟩,
    (hwrites _ _ _ hcompiles rfl).2, fun h => ?_, d', json', hcompiles'.write,
    (hwrites' _ _ _ hcompiles' rfl).1.lookup_path⟩
  obtain ⟨⟨selection, d, json, -, htakes⟩, -⟩ := hsucceeds'.mp h
  -- The check mark is the first code point of the report.
  exact absurd (htakes '✓'.toNat (List.mem_cons_self ..)) (by decide)

end PolicyAuthoring.CommandLine
