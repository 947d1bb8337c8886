import PolicyAuthoring.Value.Table
import PolicyAuthoring.Text.Digit

/-!
# Reading JSON

The value that a JSON text writes. A number with a point or an exponent is a float and any other
number an integer. A member given twice has its last value at its first place. The bare words
`NaN`, `Infinity` and `-Infinity` are read as the writer writes them.
-/

namespace PolicyAuthoring.Json

/-- Whether a character may stand between tokens. -/
def isSpace (c : Char) : Bool := c = ' ' || c = '\t' || c = '\n' || c = '\r'

/-- What is left after the blanks at the front. -/
def skipSpace (cs : List Char) : List Char := cs.dropWhile isSpace

/-- The value of a hexadecimal digit. -/
def hexValue? (c : Char) : Option Nat :=
  if '0' ≤ c ∧ c ≤ '9' then some (c.toNat - 48)
  else if 'a' ≤ c ∧ c ≤ 'f' then some (c.toNat - 87)
  else if 'A' ≤ c ∧ c ≤ 'F' then some (c.toNat - 55)
  else none

/-- The number that hexadecimal digits write. -/
def hexNumber? (cs : List Char) : Option Nat :=
  (cs.mapM hexValue?).map (Text.ofDigits 16)

/-- The code point of an escape of one letter. -/
def simpleEscape? : Char → Option Nat
  | '"' => some 34
  | '\\' => some 92
  | '/' => some 47
  | 'b' => some 8
  | 'f' => some 12
  | 'n' => some 10
  | 'r' => some 13
  | 't' => some 9
  | _ => none

/-- The code units of a string up to its closing quote, and what follows the quote. -/
def stringUnits : List Char → Option (List Nat × List Char)
  | [] => none
  | '"' :: rest => some ([], rest)
  | '\\' :: 'u' :: a :: b :: c :: d :: rest => do
    let unit ← hexNumber? [a, b, c, d]
    let (units, rest) ← stringUnits rest
    return (unit :: units, rest)
  | '\\' :: c :: rest => do
    let code ← simpleEscape? c
    let (units, rest) ← stringUnits rest
    return (code :: units, rest)
  | c :: rest =>
    if c.toNat < 32 then none
    else do
      let (units, rest) ← stringUnits rest
      return (c.toNat :: units, rest)

/-- Code points from code units: a high surrogate and the low one after it make one. -/
def joinUnits : List Nat → List Nat
  | [] => []
  | [unit] => [unit]
  | high :: low :: rest =>
    if 0xD800 ≤ high ∧ high < 0xDC00 ∧ 0xDC00 ≤ low ∧ low < 0xE000 then
      (0x10000 + (high - 0xD800) * 0x400 + (low - 0xDC00)) :: joinUnits rest
    else high :: joinUnits (low :: rest)

/-- A string after its opening quote. -/
def readString (cs : List Char) : Option (Value × List Char) := do
  let (units, rest) ← stringUnits cs
  return (Value.ofCodes (joinUnits units), rest)

/-- The digits at the front and what follows them. -/
def digits (cs : List Char) : List Char × List Char :=
  (cs.takeWhile Char.isDigit, cs.dropWhile Char.isDigit)

/-- The natural number that decimal digits write. -/
def number (cs : List Char) : Nat := Text.ofDigits 10 (cs.map fun c => c.toNat - 48)

/-- The digits after a point, if there is a point with digits after it. -/
def fraction (cs : List Char) : Option (List Char) × List Char :=
  match cs with
  | '.' :: rest =>
    match digits rest with
    | ([], _) => (none, cs)
    | (places, rest) => (some places, rest)
  | _ => (none, cs)

/-- An exponent, if there is one with digits. -/
def exponent (cs : List Char) : Option Int × List Char :=
  match cs with
  | e :: rest =>
    if e = 'e' ∨ e = 'E' then
      let (negative, body) := match rest with
        | '-' :: body => (true, body)
        | '+' :: body => (false, body)
        | body => (false, body)
      match digits body with
      | ([], _) => (none, cs)
      | (places, rest) =>
        let size : Int := number places
        (some (if negative then -size else size), rest)
    else (none, cs)
  | [] => (none, cs)

/-- A number after its sign. -/
def readNumber (negative : Bool) (cs : List Char) : Option (Value × List Char) :=
  let (whole, rest) := match cs with
    | '0' :: rest => (['0'], rest)
    | _ => digits cs
  if whole = [] then none
  else
    let (places, rest) := fraction rest
    let (power, rest) := exponent rest
    match places, power with
    | none, none =>
      let size : Int := number whole
      some (.int (if negative then -size else size), rest)
    | _, _ =>
      let places := places.getD []
      let scale := power.getD 0 - places.length
      some (.float (.ofDecimal negative (number (whole ++ places)) scale), rest)

/-- What follows a word at the front, if the word is there. -/
def after? (word : String) (cs : List Char) : Option (List Char) :=
  if word.toList.isPrefixOf cs then some (cs.drop word.length) else none

/-- A bare word. -/
def readWord (cs : List Char) : Option (Value × List Char) :=
  [("null", Value.null), ("true", .bool true), ("false", .bool false), ("NaN", .float .nan),
    ("Infinity", .float (.infinity false)), ("-Infinity", .float (.infinity true))].findSome?
    fun (word, value) => (after? word cs).map fun rest => (value, rest)

mutual

/-- A value, with blanks allowed before it. Each level of nesting takes one unit of fuel. -/
def readValue : Nat → List Char → Option (Value × List Char)
  | 0, _ => none
  | fuel + 1, cs =>
    match skipSpace cs with
    | '"' :: rest => readString rest
    | '[' :: rest =>
      match skipSpace rest with
      | ']' :: rest => some (.list [], rest)
      | _ => do
        let (items, rest) ← readItems fuel rest
        return (.list items, rest)
    | '\x7b' :: rest =>
      match skipSpace rest with
      | '\x7d' :: rest => some (.mapping [], rest)
      | _ => do
        let (members, rest) ← readMembers fuel rest
        return (.mapping (Table.ofEntries members), rest)
    | '-' :: rest =>
      match readNumber true rest with
      | some result => some result
      | none => readWord ('-' :: rest)
    | rest =>
      match readNumber false rest with
      | some result => some result
      | none => readWord rest

/-- The items of a list up to its closing bracket. -/
def readItems : Nat → List Char → Option (List Value × List Char)
  | 0, _ => none
  | fuel + 1, cs => do
    let (item, rest) ← readValue fuel cs
    match skipSpace rest with
    | ']' :: rest => return ([item], rest)
    | ',' :: rest =>
      let (items, rest) ← readItems fuel rest
      return (item :: items, rest)
    | _ => none

/-- The members of an object up to its closing brace. -/
def readMembers : Nat → List Char → Option (List (Value × Value) × List Char)
  | 0, _ => none
  | fuel + 1, cs =>
    match skipSpace cs with
    | '"' :: rest => do
      let (name, rest) ← readString rest
      match skipSpace rest with
      | ':' :: rest =>
        let (value, rest) ← readValue fuel rest
        match skipSpace rest with
        | '\x7d' :: rest => return ([(name, value)], rest)
        | ',' :: rest =>
          let (members, rest) ← readMembers fuel rest
          return ((name, value) :: members, rest)
        | _ => none
      | _ => none
    | _ => none

end

/-- The value that a whole text writes. -/
def read? (s : String) : Option Value :=
  let cs := s.toList
  match readValue (cs.length + 1) cs with
  | some (value, rest) => if skipSpace rest = [] then some value else none
  | none => none

end PolicyAuthoring.Json
