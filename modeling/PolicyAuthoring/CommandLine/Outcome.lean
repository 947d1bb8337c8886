import PolicyAuthoring.CommandLine.Request
import PolicyAuthoring.CommandLine.Run
import PolicyAuthoring.Explanation
import PolicyAuthoring.Hydration
import PolicyAuthoring.Settings
import PolicyAuthoring.Yaml.Writer

/-!
# Outcomes

What the program does for a command line, and with which code it exits. The exit code is 0 when what
was asked for was done, 1 when it could not be done, and 2 when the command line was not understood.
A file that cannot be loaded and a selection that lacks a part end the program with a line that says
so; anything else that goes wrong is a fault of the whole run.
-/

namespace PolicyAuthoring.CommandLine

/-- How the program is used. -/
def usageText : String :=
  "usage: policywright [-h] [--catalog FILE] [-v] COMMAND ...\n\n" ++
    "  compile SELECTION [-o FILE]                    compile a selection to a document\n" ++
    "  render SELECTION                               print the review sentence\n" ++
    "  explain DOCUMENT RULE                          explain one rule of a document\n" ++
    "  hydrate DOCUMENT [--json]                      reopen a document as a selection\n" ++
    "  summary DOCUMENT [--short] [--max-length N]    summarize a document\n" ++
    "  config                                         show the settings\n"

namespace Surroundings

/-- The settings in force for a request. -/
def settings (s : Surroundings) (r : Request) : Settings :=
  let store : SettingsStore := { env := s.env }
  (if r.verbose then store.enableVerbose else store.ask).settings

/-- The stem of the rule identifiers of a compile. -/
def stem (s : Surroundings) : StemStrategy → Stem
  | .timestamp => .timestamp s.clock
  | .unique => .unique s.token

end Surroundings

/-- The line about something that could not be done. -/
def failureLine (text : CodePoints) : CodePoints := "✗ " ++ text

/-- The line about a selection that lacks parts. -/
def incompleteLine (missing : List Part) : CodePoints :=
  failureLine ("Cannot compile: " ++ (Fault.incomplete missing).message)

/-- The line about so many rules written to a path. -/
def reportLine (rules : Nat) (path : String) : CodePoints :=
  "✓ Wrote " ++ decimalText rules ++ " rules to " ++ path

/-- What is done about a fault: what cannot be loaded is answered with a line. -/
def answer (s : Surroundings) : RunFault → Run Nat
  | .operation (.load cause) => do
    s.printLine (failureLine cause.message)
    return 1
  | fault => throw fault

/-- A run whose faults are answered where they can be. -/
def answering (s : Surroundings) (x : Run Nat) : Run Nat := tryCatch x (answer s)

/-- Put out a document: print its JSON text, or write it to a file and say so. -/
def deliver (s : Surroundings) (d : Document) (json : String) : Option String → Run Unit
  | none => s.printLine json
  | some path => do
    s.openFile path
    Run.append path (json ++ "\n")
    s.printLine (reportLine d.rules.length path)

/-- Compile a selection and put out its document. -/
def compileTo (s : Surroundings) (r : Registry) (stem : Stem) (selection : Selection)
    (output : Option String) : Run Nat :=
  match r.compile stem selection with
  | .error (.incomplete missing) => do
    s.printLine (incompleteLine missing)
    return 1
  | result => do
    let d ← result
    let json ← d.toJson
    deliver s d json output
    return 0

/-- The lines that explain a rule. A rule that is not there is answered with those that are, and so
is one whose explanation is empty. -/
def explanationLines (d : Document) (rule : String) : Nat × List CodePoints :=
  match (d.explain (.text rule)).filter fun text => text ≠ [] with
  | some text => (0, [text])
  | none =>
    let known : List CodePoints := d.rules.map fun rule => "  - " ++ rule.id.display
    (1, failureLine ("Rule not found: " ++ rule) :: "\nAvailable rules:" :: known)

/-- The text of a selection that was reopened. -/
def reopened (selection : Selection) (json : Bool) : Except ShapeFault String :=
  if json then return (← Json.write selection.toValue) ++ "\n"
  else return Yaml.writeMapping selection.entries

/-- A truth value with a capital letter. -/
def capitalized (b : Bool) : String := if b then "True" else "False"

/-- The lines that show the settings, and the size of the catalog if there is one. -/
def settingsLines (settings : Settings) (catalog : Option (String × Catalog)) : List String :=
  let rule := String.ofList (List.replicate 80 '=')
  ["\npolicywright Configuration",
    rule,
    "\n  POLICYWRIGHT_VERBOSE = " ++ capitalized settings.verbose,
    "  POLICYWRIGHT_RULE_IDS = " ++ settings.strategy.word,
    "  POLICYWRIGHT_SUMMARY_MAX_LENGTH = " ++ decimalText settings.summaryMaxLength] ++
  (catalog.toList.map fun (path, c) =>
    "\n  Catalog: " ++ path ++ " (" ++ decimalText c.size ++ " attributes)") ++
  ["\n" ++ rule ++ "\n"]

namespace Request

/-- The registry that the files hold for a request. -/
def registry (request : Request) (files : Files) : Except Fault Registry :=
  match request.catalog with
  | some path => files.loadRegistry path
  | none => .ok {}

/-- Carry out a command with a registry. -/
def perform (s : Surroundings) (request : Request) (r : Registry) : Run Nat := do
  let settings := s.settings request
  match request.command with
  | .compile path output =>
    let selection ← Run.load fun files => files.loadSelection path
    compileTo s r (s.stem settings.strategy) selection output
  | .render path =>
    let selection ← Run.load fun files => files.loadSelection path
    s.printLine (← r.sentence selection)
    return 0
  | .explain path rule =>
    let d ← Run.load fun files => files.loadDocument path
    let (exitCode, lines) := explanationLines d rule
    lines.forM s.printLine
    return exitCode
  | .hydrate path json =>
    let d ← Run.load fun files => files.loadDocument path
    let selection ← r.catalog.hydrate d
    s.print (← reopened selection json)
    return 0
  | .summary path short maxLength =>
    let d ← Run.load fun files => files.loadDocument path
    let text ←
      if short then r.shortSummary (maxLength.getD settings.summaryMaxLength) d
      else r.summary d
    s.printLine text
    return 0
  | .config =>
    let catalog := request.catalog.map fun path => (path, r.catalog)
    (settingsLines settings catalog).forM fun line => s.printLine line
    return 0

/-- Carry out a request. -/
def run (s : Surroundings) (request : Request) : Run Nat :=
  answering s (Run.load request.registry >>= request.perform s)

end Request

namespace Invocation

/-- Carry out what a command line asks for. -/
def run (s : Surroundings) : Invocation → Run Nat
  | .help => do
    s.print usageText
    return 0
  | .nothing => do
    s.print usageText
    return 1
  | .misuse => return 2
  | .request r => r.run s

/-- What comes of a command line: an exit code or a fault, and what the run leaves behind. -/
def outcome (s : Surroundings) (i : Invocation) : EStateM.Result RunFault World Nat :=
  i.run s { files := s.files }

end Invocation

end PolicyAuthoring.CommandLine
