import PolicyAuthoring.CommandLine.Arguments

/-!
# Requests

What a command line asks for. Options for the whole program come before the command, and everything
after the command belongs to it. Asking for help wins over whatever is wrong further on, and what
is wrong stays wrong whatever comes after it.
-/

namespace PolicyAuthoring.CommandLine

/-- What the program can be asked to do. -/
inductive Command where
  /-- Compile a selection, and write the document to a file if one is given. -/
  | compile (selection : String) (output : Option String)
  /-- Show the review sentence of a selection. -/
  | render (selection : String)
  /-- Explain a rule of a document. -/
  | explain (document rule : String)
  /-- Reopen a document as a selection. -/
  | hydrate (document : String) (json : Bool)
  /-- Show the summary of a document, or its short summary. -/
  | summary (document : String) (short : Bool) (maxLength : Option Int)
  /-- Show the settings. -/
  | config

/-- The file that a command reads. -/
def Command.input? : Command → Option String
  | .compile selection _ => some selection
  | .render selection => some selection
  | .explain document _ => some document
  | .hydrate document _ => some document
  | .summary document _ _ => some document
  | .config => none

/-- A command with the options for the whole program. -/
structure Request where
  /-- The file with the catalog. -/
  catalog : Option String
  /-- Whether debug messages are logged. -/
  verbose : Bool
  /-- The command. -/
  command : Command

/-- What a command line asks for. -/
inductive Invocation where
  /-- To be told how the program is used. -/
  | help
  /-- Nothing. -/
  | nothing
  /-- Something that is not understood. -/
  | misuse
  /-- To do something. -/
  | request (r : Request)

/-- The files that are read for what a command line asks for. -/
def Invocation.inputs : Invocation → List String
  | .request r => r.catalog.toList ++ r.command.input?.toList
  | _ => []

/-- The file that is written for what a command line asks for. -/
def Invocation.output? : Invocation → Option String
  | .request { command := .compile _ output, .. } => output
  | _ => none

/-- The option that every command has. -/
def helpSwitch : Switch := ⟨some 'h', "help", .none .help⟩

/-- The options for the whole program. -/
def programSwitches : List Switch :=
  [helpSwitch, ⟨none, "catalog", .value (some ∘ .catalog)⟩, ⟨some 'v', "verbose", .none .verbose⟩]

/-- The path that was chosen last for the catalog. The empty path counts as none. -/
def catalogChoice (choices : List Choice) : Option String :=
  (choices.filterMap fun
    | .catalog path => some path
    | _ => none).getLast?.filter (· ≠ "")

/-- The path that was chosen last for the output. The empty path counts as none. -/
def outputChoice (choices : List Choice) : Option String :=
  (choices.filterMap fun
    | .output path => some path
    | _ => none).getLast?.filter (· ≠ "")

/-- The length that was chosen last. -/
def maxLengthChoice (choices : List Choice) : Option Int :=
  (choices.filterMap fun
    | .maxLength n => some n
    | _ => none).getLast?

/-- Whether debug messages were chosen. -/
def verboseChoice (choices : List Choice) : Bool :=
  choices.any fun
    | .verbose => true
    | _ => false

/-- Whether JSON was chosen. -/
def jsonChoice (choices : List Choice) : Bool :=
  choices.any fun
    | .json => true
    | _ => false

/-- Whether a short summary was chosen. -/
def shortChoice (choices : List Choice) : Bool :=
  choices.any fun
    | .short => true
    | _ => false

/-- The form of a command. -/
structure Usage where
  /-- The word for the command. -/
  word : String
  /-- The options of the command, apart from the one for help. -/
  switches : List Switch
  /-- The command with these choices and operands, if it takes so many operands. -/
  command? : List Choice → List String → Option Command

/-- The commands. -/
def usages : List Usage := [
  { word := "compile"
    switches := [⟨some 'o', "output", .value (some ∘ .output)⟩]
    command? := fun choices operands =>
      match operands with
      | [selection] => some (.compile selection (outputChoice choices))
      | _ => none },
  { word := "render"
    switches := []
    command? := fun _ operands =>
      match operands with
      | [selection] => some (.render selection)
      | _ => none },
  { word := "explain"
    switches := []
    command? := fun _ operands =>
      match operands with
      | [document, rule] => some (.explain document rule)
      | _ => none },
  { word := "hydrate"
    switches := [⟨none, "json", .none .json⟩]
    command? := fun choices operands =>
      match operands with
      | [document] => some (.hydrate document (jsonChoice choices))
      | _ => none },
  { word := "summary"
    switches := [⟨none, "short", .none .short⟩,
      ⟨none, "max-length", .value fun s => (Text.integer? s).map .maxLength⟩]
    command? := fun choices operands =>
      match operands with
      | [document] =>
        some (.summary document (shortChoice choices) (maxLengthChoice choices))
      | _ => none },
  { word := "config"
    switches := []
    command? := fun _ operands => if operands.isEmpty then some .config else none }]

/-- What the parts of a command line amount to. -/
inductive Reading where
  /-- A wish for help. -/
  | help
  /-- Something that is not understood. -/
  | misuse
  /-- What was chosen, and the operands. -/
  | parts (choices : List Choice) (operands : List String)

/-- Put something in front of what was chosen and of the operands. -/
def Reading.after (choices : List Choice) (operands : List String) : Reading → Reading
  | .parts choices' operands' => .parts (choices ++ choices') (operands ++ operands')
  | other => other

/-- A reading after something that is not understood. -/
def Reading.spoiled : Reading → Reading
  | .help => .help
  | _ => .misuse

/-- What the parts of a command line amount to. -/
def Reading.ofItems : List Item → Reading
  | [] => .parts [] []
  | .choice .help :: _ => .help
  | .choice c :: rest => (ofItems rest).after [c] []
  | .operand arg _ :: rest => (ofItems rest).after [] [arg]
  | .plain arg :: rest => (ofItems rest).after [] [arg]
  | .unknown :: rest => (ofItems rest).spoiled
  | .misused :: _ => .misuse

/-- What the arguments after the word for a command amount to, with the choices before it. -/
def Usage.invocation (u : Usage) (choices : List Choice) (args : List String) : Invocation :=
  match Reading.ofItems (items (helpSwitch :: u.switches) args) with
  | .help => .help
  | .misuse => .misuse
  | .parts own operands =>
    match u.command? own operands with
    | some command =>
      .request { catalog := catalogChoice choices, verbose := verboseChoice choices, command }
    | none => .misuse

/-- What a command line amounts to after something that is not understood. -/
def Invocation.spoiled : Invocation → Invocation
  | .help => .help
  | _ => .misuse

/-- What the parts of a command line ask for, with the choices before them. -/
def Invocation.ofItems (choices : List Choice) : List Item → Invocation
  | [] => .nothing
  | .choice .help :: _ => .help
  | .choice c :: rest => ofItems (choices ++ [c]) rest
  | .operand word args :: _ =>
    match usages.find? fun u => u.word = word with
    | some u => u.invocation choices args
    | none => .misuse
  | .plain _ :: _ => .misuse
  | .unknown :: rest => (ofItems choices rest).spoiled
  | .misused :: _ => .misuse

/-- What a command line asks for. -/
def Invocation.ofArguments (args : List String) : Invocation :=
  .ofItems [] (items programSwitches args)

end PolicyAuthoring.CommandLine
