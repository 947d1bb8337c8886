import PolicyAuthoring.Text.LowerCase
import PolicyAuthoring.Yaml.Scalar

/-!
# Scalars under tags

The value of a scalar under a tag. A plain scalar gets its tag from its form, so it has the form of
its tag. A tag that is written out may stand before any text: then a number is read with blanks
around it, with a sign too many and with digits of any script, and a text that is no number even so
is a fault that is not one of the file. The tag of byte strings is not known here, since no value is
one.
-/

namespace PolicyAuthoring.Yaml

/-! ## Integer literals -/

/-- The value of a digit of a base up to sixteen. -/
def literalDigit? (base : Nat) (c : Char) : Option Nat :=
  let letter? := if 'a' ≤ c ∧ c ≤ 'f' then some (c.toNat - 87)
    else if 'A' ≤ c ∧ c ≤ 'F' then some (c.toNat - 55)
    else none
  ((Text.digitValue? c).or letter?).filter (· < base)

/-- The letters that mark a base. -/
def baseMarks : Nat → List Char
  | 2 => ['b', 'B']
  | 8 => ['o', 'O']
  | 16 => ['x', 'X']
  | _ => []

/-- The digits after the mark of a base, if there is one. -/
def afterBaseMark (base : Nat) : List Char → List Char
  | zero :: mark :: rest =>
    if Text.digitValue? zero = some 0 ∧ mark ∈ baseMarks base then rest else zero :: mark :: rest
  | cs => cs

/-- The integer that a literal without underscores writes in a base. -/
def literalInteger (base : Nat) (cs : List Char) : Except ShapeFault Int :=
  let (negative, body) := signed (Text.trimBlank Text.surroundsInteger cs)
  match afterBaseMark base body with
  | [] => .error (.notAnInteger base (String.ofList cs))
  | digits =>
    match digits.mapM (literalDigit? base) with
    | some digits =>
      let size : Int := Text.ofDigits base digits
      .ok (if negative then -size else size)
    | none => .error (.notAnInteger base (String.ofList cs))

/-- The size of an integer under its tag, after its sign. -/
def taggedSize : List Char → Except ShapeFault Int
  | [] => .error .noSuchCharacter
  | '0' :: 'b' :: cs => literalInteger 2 cs
  | '0' :: 'x' :: cs => literalInteger 16 cs
  | '0' :: cs => literalInteger 8 ('0' :: cs)
  | cs => do
    let places ← (colonParts cs).mapM (literalInteger 10)
    return places.foldl (fun n place => n * 60 + place) 0

/-- The integer that a scalar writes under its tag. -/
def taggedInteger (cs : List Char) : Except ShapeFault Int :=
  match plainDigits cs with
  | [] => .error .noSuchCharacter
  | cs =>
    let (negative, body) := signed cs
    (taggedSize body).map fun size => if negative then -size else size

/-! ## Float literals -/

/-- A digit of any script as the digit of the same value, and any other character as it is. -/
def plainDigit (c : Char) : Char :=
  match Text.digitValue? c with
  | some value => Char.ofNat (48 + value)
  | none => c

/-- The exponent of a float literal, if what follows the digits is one or nothing. -/
def literalExponent? : List Char → Option Int
  | [] => some 0
  | 'e' :: cs =>
    let (negative, digits) := signed cs
    if digits ≠ [] ∧ digits.all Char.isDigit then
      let size : Int := basedNumber 10 digits
      some (if negative then -size else size)
    else none
  | _ => none

/-- The float that digits, a point and an exponent write after a sign. -/
def decimalLiteral? (negative : Bool) (cs : List Char) : Option Binary64 :=
  let whole := cs.takeWhile Char.isDigit
  let (places, rest) := match cs.dropWhile Char.isDigit with
    | '.' :: rest => (rest.takeWhile Char.isDigit, rest.dropWhile Char.isDigit)
    | rest => ([], rest)
  if whole = [] ∧ places = [] then none
  else (literalExponent? rest).map (pointNumber negative whole places)

/-- The float that a literal in lower case writes. -/
def literalFloat (cs : List Char) : Except ShapeFault Binary64 :=
  let (negative, body) := signed (Text.trimBlank Text.surroundsInteger cs)
  let word := String.ofList body
  if word = "inf" ∨ word = "infinity" then .ok (.infinity negative)
  else if word = "nan" then .ok .nan
  else
    match decimalLiteral? negative (body.map plainDigit) with
    | some x => .ok x
    | none => .error (.notAFloat (String.ofList cs))

/-- The size of a float under its tag, after its sign. -/
def taggedFloatSize (cs : List Char) : Except ShapeFault Binary64 :=
  if String.ofList cs = ".inf" then .ok (.infinity false)
  else if String.ofList cs = ".nan" then .ok .nan
  else if ':' ∈ cs then do
    return sixtiethSum .zero 1 (← (colonParts cs).mapM literalFloat).reverse
  else literalFloat cs

/-- The float that a scalar writes under its tag. -/
def taggedFloat (cs : List Char) : Except ShapeFault Binary64 :=
  match (plainDigits cs).map Char.toLower with
  | [] => .error .noSuchCharacter
  | cs =>
    let (negative, body) := signed cs
    (taggedFloatSize body).map fun size => if negative then size.negate else size

/-! ## Scalars -/

/-- The truth value that a scalar writes under its tag, in letters of either case. -/
def taggedBool (codes : CodePoints) : Except ShapeFault Bool :=
  let word := Text.lowerCodes codes
  if trueWords.any fun w => Text.codes w = word then .ok true
  else if falseWords.any fun w => Text.codes w = word then .ok false
  else .error (.unknownWord word)

/-- What cannot be read under a tag is a fault, but none of the file. -/
def possible {α : Type} : Except ShapeFault α → Except YamlFault α :=
  Except.mapError .impossible

/-- The value of a scalar under a tag. -/
def scalarValue (tag : Tag) (codes : List Nat) : Except YamlFault Value :=
  let cs := codes.map Char.ofNat
  let s := String.ofList cs
  match tag with
  | .text => .ok (.ofCodes codes)
  | .null => .ok .null
  | .bool =>
    if trueWords.contains s then .ok (.bool true)
    else if falseWords.contains s then .ok (.bool false)
    else possible ((taggedBool codes).map .bool)
  | .int =>
    match integer? cs with
    | some (.ok n) => .ok (.int n)
    | some (.error cause) => .error (.impossible cause)
    | none => possible ((taggedInteger cs).map .int)
  | .float =>
    match float? cs with
    | some x => .ok (.float x)
    | none => possible ((taggedFloat cs).map .float)
  | .timestamp =>
    match (timestampForm? cs).map TimestampForm.value with
    | some (.ok v) => .ok v
    | some (.error cause) => .error (.impossible (.calendar cause))
    | none => .error (.impossible (.noOperation .null "groupdict"))
  | _ => .error .malformed

end PolicyAuthoring.Yaml
