import PolicyAuthoring.Value.Basic
import PolicyAuthoring.Text.CodePoints
import PolicyAuthoring.Text.Quoted

/-!
# The text of values

Two ways to write a value. `Value.literal` is the form a value has inside a list or a mapping and
in messages about it: texts stand in quotes, containers in brackets. `Value.display` is the form
it has on its own in a sentence: a text stands for itself, whatever its code points, and a date is
written with hyphens.
-/

namespace PolicyAuthoring

namespace Text

/-- Texts one after the other with a separator between them. -/
def joinWith (separator : String) : List String → String
  | [] => ""
  | [s] => s
  | s :: rest => s ++ separator ++ joinWith separator rest

@[simp] theorem joinWith_nil (separator : String) : joinWith separator [] = "" := rfl

@[simp] theorem joinWith_singleton (separator s : String) : joinWith separator [s] = s := rfl

@[simp] theorem joinWith_cons_cons (separator s t : String) (rest : List String) :
    joinWith separator (s :: t :: rest) = s ++ separator ++ joinWith separator (t :: rest) := rfl

end Text

/-- Numbers with commas between them. -/
def numberList (numbers : List Nat) : String :=
  Text.joinWith ", " (numbers.map fun (n : Nat) => decimalText n)

/-- A day as a literal. -/
def Date.literal (d : Date) : String :=
  "datetime.date(" ++ numberList [d.year, d.month, d.day] ++ ")"

/-- A difference of time as a literal, given in minutes. -/
def durationLiteral (minutes : Int) : String :=
  let days := minutes.fdiv 1440
  let seconds := minutes.fmod 1440 * 60
  let parts := (if days = 0 then [] else ["days=" ++ decimalText days]) ++
    (if seconds = 0 then [] else ["seconds=" ++ decimalText seconds])
  "datetime.timedelta(" ++ (if parts = [] then "0" else Text.joinWith ", " parts) ++ ")"

/-- A point of time as a literal, without trailing zeros of the time of day. -/
def DateTime.literal (t : DateTime) : String :=
  let trailing :=
    if t.microsecond ≠ 0 then [t.second, t.microsecond]
    else if t.second ≠ 0 then [t.second] else []
  let parts := [t.date.year, t.date.month, t.date.day, t.hour, t.minute] ++ trailing
  let zone := match t.offset with
    | none => ""
    | some 0 => ", tzinfo=datetime.timezone.utc"
    | some minutes => ", tzinfo=datetime.timezone(" ++ durationLiteral minutes ++ ")"
  "datetime.datetime(" ++ numberList parts ++ zone ++ ")"

namespace Value

mutual

/-- A value as a literal. -/
def literal : Value → String
  | .null => "None"
  | .bool b => if b then "True" else "False"
  | .int n => decimalText n
  | .float x => x.text
  | .text s => Text.quoted (s.toList.map Char.toNat)
  | .unpaired codes => Text.quoted codes
  | .list items => "[" ++ Text.joinWith ", " (literals items) ++ "]"
  | .tuple [] => "()"
  | .tuple [v] => "(" ++ literal v ++ ",)"
  | .tuple items => "(" ++ Text.joinWith ", " (literals items) ++ ")"
  | .mapping entries => "\x7b" ++ Text.joinWith ", " (entryLiterals entries) ++ "\x7d"
  | .set [] => "set()"
  | .set members => "\x7b" ++ Text.joinWith ", " (literals members) ++ "\x7d"
  | .date d => d.literal
  | .datetime t => t.literal
termination_by structural v => v

/-- Values as literals. -/
def literals : List Value → List String
  | [] => []
  | v :: rest => literal v :: literals rest
termination_by structural vs => vs

/-- Entries of a mapping as literals. -/
def entryLiterals : List (Value × Value) → List String
  | [] => []
  | e :: rest => entryLiteral e :: entryLiterals rest
termination_by structural es => es

/-- An entry of a mapping as a literal. -/
def entryLiteral : Value × Value → String
  | (k, v) => literal k ++ ": " ++ literal v
termination_by structural e => e

end

/-- A value on its own. -/
def display : Value → CodePoints
  | .text s => s
  | .unpaired codes => codes
  | .date d => d.text
  | .datetime t => t.text " "
  | v => v.literal

@[simp] theorem display_text (s : String) : (text s).display = Text.codes s := rfl

/-- What is made of code points is a text. -/
@[simp] theorem kind_ofCodes (codes : CodePoints) : (ofCodes codes).kind = .text := by
  rw [ofCodes]
  split <;> rfl

@[simp] theorem isText_ofCodes (codes : CodePoints) : (ofCodes codes).isText = true := by
  rw [isText, kind_ofCodes, decide_eq_true_iff]

/-- What is displayed of a text with given code points is those code points. -/
@[simp] theorem display_ofCodes (codes : CodePoints) : (ofCodes codes).display = codes := by
  rw [ofCodes]
  split
  next hvalid =>
    rw [display_text, Text.codes, String.toList_ofList, List.map_map]
    refine (List.map_congr_left fun code hcode => ?_).trans (List.map_id codes)
    have hcode : code.isValidChar := of_decide_eq_true (List.all_eq_true.mp hvalid code hcode)
    exact congrArg Char.toNat (dif_pos hcode)
  next => rfl

end Value

end PolicyAuthoring
