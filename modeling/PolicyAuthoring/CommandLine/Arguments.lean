import PolicyAuthoring.Text.Digit

/-!
# Arguments

The arguments of a command are options and operands. An option begins with a dash and a letter or
with two dashes and a name, and may take a value, which is joined to it or is the next argument. A
name may be cut short as long as it names one option only. A single dash, a negative number and an
argument with a space in it are operands unless they name an option, and so is everything after a
double dash.
-/

namespace PolicyAuthoring.CommandLine

/-- What an option chooses. -/
inductive Choice where
  /-- To be told how the program is used. -/
  | help
  /-- To log debug messages. -/
  | verbose
  /-- The file with the catalog. -/
  | catalog (path : String)
  /-- The file to write to. -/
  | output (path : String)
  /-- To write JSON. -/
  | json
  /-- To cut a summary short. -/
  | short
  /-- The length of a short summary. -/
  | maxLength (n : Int)

/-- What an option takes. -/
inductive Parameter where
  /-- No value. -/
  | none (choice : Choice)
  /-- A value, which may turn out to be wrong. -/
  | value (choose : String → Option Choice)

/-- An option. -/
structure Switch where
  /-- The letter after a single dash. -/
  letter : Option Char
  /-- The name after two dashes. -/
  name : String
  /-- What the option takes. -/
  parameter : Parameter

/-- What a single argument is. -/
inductive Form where
  /-- An operand. -/
  | operand
  /-- An option that there is not. -/
  | unknown
  /-- Options that are complete. -/
  | complete (choices : List Choice)
  /-- Options, of which the last needs the next argument as its value. -/
  | awaiting (choices : List Choice) (choose : String → Option Choice)
  /-- An option that is used wrongly. -/
  | misused

/-- A value for an option, after the options before it. -/
def Form.ofValue (earlier : List Choice) (choose : String → Option Choice) (value : List Char) :
    Form :=
  match choose (String.ofList value) with
  | some choice => .complete (earlier ++ [choice])
  | none => .misused

/-- An option given by its name, with the value that is joined to it. -/
def Switch.form (s : Switch) (joined : Option (List Char)) : Form :=
  match s.parameter, joined with
  | .none choice, none => .complete [choice]
  | .none _, some _ => .misused
  | .value choose, none => .awaiting [] choose
  | .value choose, some value => .ofValue [] choose value

/-- The options that letters name one after the other. The first letter that takes a value takes the
rest as its value. -/
def lettersForm (switches : List Switch) (earlier : List Choice) : List Char → Form
  | [] => .complete earlier
  | c :: rest =>
    match switches.find? fun s => s.letter = some c with
    | none => .misused
    | some s =>
      match s.parameter, rest with
      | .none choice, rest => lettersForm switches (earlier ++ [choice]) rest
      | .value choose, [] => .awaiting earlier choose
      | .value choose, rest => .ofValue earlier choose rest

/-- Whether a text has the form of a negative number. -/
def isNegativeNumber : List Char → Bool
  | '-' :: cs =>
    let isDigit (c : Char) : Bool := (Text.digitValue? c).isSome
    match cs.dropWhile isDigit with
    | [] => cs ≠ []
    | '.' :: places => places ≠ [] && places.all isDigit
    | _ => false
  | _ => false

/-- What an argument is that names no option. -/
def namelessForm (arg : List Char) : Form :=
  if isNegativeNumber arg || arg.contains ' ' then .operand else .unknown

/-- A text up to the first equals sign, and what follows the sign if there is one. -/
def splitEquals (cs : List Char) : List Char × Option (List Char) :=
  match cs.dropWhile (· ≠ '=') with
  | [] => (cs, none)
  | _ :: value => (cs.takeWhile (· ≠ '='), some value)

/-- What an argument is. -/
def Form.ofArgument (switches : List Switch) (arg : List Char) : Form :=
  match arg with
  | '-' :: '-' :: rest =>
    let (name, joined) := splitEquals rest
    let exactly := switches.filter fun s => s.name.toList = name
    let loosely := switches.filter fun s => name.isPrefixOf s.name.toList
    -- A full name stands for its option even when it begins a longer name.
    match if exactly.isEmpty then loosely else exactly with
    | [] => namelessForm arg
    | [s] => s.form joined
    | _ => .misused
  | '-' :: c :: rest =>
    match switches.find? fun s => s.letter = some c with
    | none => namelessForm arg
    | some s =>
      match rest with
      | '=' :: value => s.form (some value)
      | _ => lettersForm switches [] (c :: rest)
  | _ => .operand

/-- A part of a command line. -/
inductive Item where
  /-- What an option chooses. -/
  | choice (choice : Choice)
  /-- An operand, and the arguments after it. -/
  | operand (arg : String) (rest : List String)
  /-- An operand after a double dash. -/
  | plain (arg : String)
  /-- An argument that is not understood. -/
  | unknown
  /-- An option that is used wrongly. Nothing after it is looked at. -/
  | misused

/-- The parts of a command line. A double dash is not understood when there is no operand next to
it. -/
def items (switches : List Switch) : List String → List Item
  | [] => []
  | arg :: rest =>
    if arg = "--" then
      if rest = [] then [.unknown] else rest.map .plain
    else
      match Form.ofArgument switches arg.toList with
      | .operand => .operand arg rest :: (if rest = ["--"] then [] else items switches rest)
      | .unknown => .unknown :: items switches rest
      | .misused => [.misused]
      | .complete choices => choices.map .choice ++ items switches rest
      | .awaiting choices choose =>
        match rest with
        | [] => [.misused]
        | value :: rest =>
          match Form.ofArgument switches value.toList, choose value with
          | .operand, some choice => choices.map .choice ++ .choice choice :: items switches rest
          | _, _ => [.misused]

end PolicyAuthoring.CommandLine
