import PolicyAuthoring.Fault
import PolicyAuthoring.Text.Digit

/-!
# YAML scalars

What a plain scalar stands for. YAML 1.1 reads a plain scalar as null, a truth value, a number, a
date or a point of time if it has the form of one, and as a text otherwise. `plainTag` tells which.
-/

namespace PolicyAuthoring.Yaml

/-- Why a YAML text has no value. -/
inductive YamlFault where
  /-- The text is not well formed. -/
  | malformed
  /-- A scalar stands for nothing under its tag. -/
  | impossible (cause : ShapeFault)

/-- What a node is said to be. -/
inductive Tag where
  | null | bool | int | float | timestamp | text | sequence | mapping | set
  /-- A sequence of mappings of one entry each, which are read as pairs. -/
  | pairs
  /-- The key under which other mappings are merged in. -/
  | merge
  /-- The key for the value of a mapping. -/
  | value
  /-- Something that is not known here. -/
  | unknown
  deriving DecidableEq

/-- The start of the names of the tags that YAML defines. -/
def tagSpace : String := "tag:yaml.org,2002:"

/-- The tag with a full name. -/
def Tag.ofName (name : String) : Tag :=
  let known : List (String × Tag) := [("null", .null), ("bool", .bool), ("int", .int),
    ("float", .float), ("timestamp", .timestamp), ("str", .text), ("seq", .sequence),
    ("map", .mapping), ("set", .set), ("omap", .pairs), ("pairs", .pairs), ("merge", .merge),
    ("value", .value)]
  ((known.find? fun entry => name = tagSpace ++ entry.1).map Prod.snd).getD .unknown

/-! ## Numbers -/

/-- Whether a character can stand in a run of digits that underscores may break up. -/
def isDigitMark (c : Char) : Bool := c.isDigit || c = '_'

/-- A sign at the front and what follows it. -/
def signed : List Char → Bool × List Char
  | '-' :: cs => (true, cs)
  | '+' :: cs => (false, cs)
  | cs => (false, cs)

/-- Digits without the underscores between them. -/
def plainDigits (cs : List Char) : List Char := cs.filter (· ≠ '_')

/-- The number that digits write in a base. -/
def basedNumber (base : Nat) (cs : List Char) : Nat :=
  let digit (c : Char) : Nat :=
    if c.isDigit then c.toNat - 48
    else if 'a' ≤ c then c.toNat - 87 else c.toNat - 55
  Text.ofDigits base ((plainDigits cs).map digit)

/-- The parts of a text between colons. -/
def colonParts : List Char → List (List Char)
  | [] => [[]]
  | c :: rest =>
    if c = ':' then [] :: colonParts rest
    else match colonParts rest with
      | first :: others => (c :: first) :: others
      | [] => [[c]]

/-- Whether digits write a number below sixty. -/
def isSixtieth : List Char → Bool
  | [c] => c.isDigit
  | [c, d] => '0' ≤ c && c ≤ '5' && d.isDigit
  | _ => false

/-- The forms of an integer after its sign. -/
inductive IntegerForm where
  /-- Digits in a base. -/
  | digits (base : Nat) (cs : List Char)
  /-- Places of weight sixty. -/
  | sixtieths (places : List (List Char))

/-- The form of an integer after its sign, if it has one. -/
def integerForm? : List Char → Option IntegerForm
  | ['0'] => some (.digits 10 ['0'])
  | '0' :: 'b' :: cs =>
    if cs ≠ [] && cs.all (fun c => c = '0' || c = '1' || c = '_') then some (.digits 2 cs)
    else none
  | '0' :: 'x' :: cs =>
    if cs ≠ [] && cs.all (fun c => isDigitMark c || ('a' ≤ c && c ≤ 'f') || ('A' ≤ c && c ≤ 'F'))
    then some (.digits 16 cs) else none
  | '0' :: cs =>
    if cs.all (fun c => ('0' ≤ c && c ≤ '7') || c = '_') then some (.digits 8 cs) else none
  | c :: cs =>
    if '1' ≤ c ∧ c ≤ '9' then
      match colonParts cs with
      | [digits] => if digits.all isDigitMark then some (.digits 10 (c :: digits)) else none
      | digits :: places =>
        if digits.all isDigitMark && places.all isSixtieth then
          some (.sixtieths ((c :: digits) :: places))
        else none
      | [] => none
    else none
  | [] => none

/-- The number that an integer form writes. -/
def IntegerForm.number : IntegerForm → Except ShapeFault Nat
  | .digits base cs =>
    if plainDigits cs = [] ∧ base ≠ 8 then .error (.notAnInteger base "")
    else .ok (basedNumber base cs)
  | .sixtieths places => .ok (Text.ofDigits 60 (places.map (basedNumber 10)))

/-- The integer that a plain scalar writes, if it has the form of one. -/
def integer? (cs : List Char) : Option (Except ShapeFault Int) :=
  let (negative, body) := signed cs
  (integerForm? body).map fun form =>
    form.number.map fun n => if negative then -(n : Int) else (n : Int)

/-- An exponent with its sign, or nothing at all. -/
def exponent? : List Char → Option Int
  | [] => some 0
  | e :: sign :: cs =>
    if (e = 'e' ∨ e = 'E') ∧ (sign = '-' ∨ sign = '+') ∧ cs ≠ [] ∧ cs.all Char.isDigit then
      let size : Int := basedNumber 10 cs
      some (if sign = '-' then -size else size)
    else none
  | _ => none

/-- The number with these digits before and after the point and an exponent. -/
def pointNumber (negative : Bool) (whole places : List Char) (exponent : Int) : Binary64 :=
  let whole := plainDigits whole
  let places := plainDigits places
  .ofDecimal negative (basedNumber 10 (whole ++ places)) (exponent - places.length)

/-- The sum of places of weight sixty, the last place first, rounded after every step. -/
def sixtiethSum (sum : Binary64) (weight : Nat) : List Binary64 → Binary64
  | [] => sum
  | place :: rest =>
    let term := (place.scale? weight).getD (.infinity false)
    sixtiethSum ((sum.add? term).getD (.infinity false)) (weight * 60) rest

/-- A float in places of weight sixty, the last of which has a point. -/
def sixtiethFloat? (negative : Bool) (cs : List Char) : Option Binary64 :=
  match (colonParts cs).reverse with
  | last :: firsts =>
    let (whole, rest) := (last.takeWhile isDigitMark, last.dropWhile isDigitMark)
    match rest, firsts.reverse with
    | '.' :: places, lead :: middle =>
      if isSixtieth whole && places.all isDigitMark && lead.all isDigitMark &&
          (lead.head?.map Char.isDigit).getD false && middle.all isSixtieth then
        let terms := pointNumber false whole places 0 ::
          firsts.map fun place => pointNumber false place [] 0
        let sum := sixtiethSum .zero 1 terms
        some (if negative then sum.negate else sum)
      else none
    | _, _ => none
  | [] => none

/-- A float with a point after its sign, if there is one. -/
def pointFloat? (hasSign negative : Bool) (cs : List Char) : Option Binary64 :=
  let whole := cs.takeWhile isDigitMark
  match whole, cs.dropWhile isDigitMark with
  | [], '.' :: rest =>
    let places := rest.takeWhile isDigitMark
    if hasSign || !(places.head?.map Char.isDigit).getD false then none
    else (exponent? (rest.dropWhile isDigitMark)).map (pointNumber negative [] places)
  | first :: _, '.' :: rest =>
    if first.isDigit then
      (exponent? (rest.dropWhile isDigitMark)).map
        (pointNumber negative whole (rest.takeWhile isDigitMark))
    else none
  | _, _ => none

/-- The float that a plain scalar writes, if it has the form of one. -/
def float? (cs : List Char) : Option Binary64 :=
  let s := String.ofList cs
  let (negative, body) := signed cs
  if [".nan", ".NaN", ".NAN"].contains s then some .nan
  else if [".inf", ".Inf", ".INF"].contains (String.ofList body) then some (.infinity negative)
  else (pointFloat? (body.length ≠ cs.length) negative body).or (sixtiethFloat? negative body)

/-! ## Dates -/

/-- The parts of a date or a point of time, as digits. -/
structure TimestampForm where
  /-- The year. -/
  year : List Char
  /-- The month. -/
  month : List Char
  /-- The day. -/
  day : List Char
  /-- Hour, minute, second and fraction of the second, if the time of day is given. -/
  time : Option (List Char × List Char × List Char × List Char)
  /-- The offset: whether it is negative, its hours and its minutes. -/
  offset : Option (Bool × List Char × List Char)

/-- Digits at the front, at most as many as given. -/
def upToDigits : Nat → List Char → List Char × List Char
  | n + 1, c :: rest =>
    if c.isDigit then
      let (digits, rest) := upToDigits n rest
      (c :: digits, rest)
    else ([], c :: rest)
  | _, cs => ([], cs)

/-- An offset up to the end of the text. The letter `Z` stands for no difference. -/
def offsetForm? (cs : List Char) : Option (Option (Bool × List Char × List Char)) :=
  match cs.dropWhile fun c => c = ' ' || c = '\t' with
  | [] => if cs = [] then some none else none
  | ['Z'] => some (some (false, ['0'], ['0']))
  | sign :: rest =>
    if sign = '-' ∨ sign = '+' then
      match upToDigits 2 rest with
      | ([], _) => none
      | (hours, []) => some (some (sign = '-', hours, ['0']))
      | (hours, ':' :: rest) =>
        match upToDigits 2 rest with
        | (minutes, []) =>
          if minutes.length = 2 then some (some (sign = '-', hours, minutes)) else none
        | _ => none
      | _ => none
    else none

/-- The time of day and the offset. -/
def timeForm? (cs : List Char) :
    Option ((List Char × List Char × List Char × List Char) ×
      Option (Bool × List Char × List Char)) :=
  match upToDigits 2 cs with
  | ([], _) => none
  | (hour, ':' :: rest) =>
    match upToDigits 2 rest with
    | (minute, ':' :: rest) =>
      match upToDigits 2 rest with
      | (second, rest) =>
        if minute.length = 2 ∧ second.length = 2 then
          let (fraction, rest) := match rest with
            | '.' :: rest => (rest.takeWhile Char.isDigit, rest.dropWhile Char.isDigit)
            | _ => ([], rest)
          (offsetForm? rest).map fun offset => ((hour, minute, second, fraction), offset)
        else none
    | _ => none
  | _ => none

/-- What follows the mark between a date and a time of day. -/
def afterDateMark? : List Char → Option (List Char)
  | c :: rest =>
    if c = 'T' ∨ c = 't' then some rest
    else if c = ' ' ∨ c = '\t' then some (rest.dropWhile fun d => d = ' ' || d = '\t')
    else none
  | [] => none

/-- The form of a date or a point of time. -/
def timestampForm? (cs : List Char) : Option TimestampForm := do
  let (year, '-' :: rest) := upToDigits 4 cs | none
  let (month, '-' :: rest) := upToDigits 2 rest | none
  let (day, rest) := upToDigits 2 rest
  if year.length ≠ 4 ∨ month = [] ∨ day = [] then none
  else if rest = [] then some { year, month, day, time := none, offset := none }
  else
    let (time, offset) ← timeForm? (← afterDateMark? rest)
    return { year, month, day, time := some time, offset }

/-- Whether a plain scalar of this form is a timestamp. A date without a time of day has to have
two digits for the month and two for the day. -/
def TimestampForm.isPlain (form : TimestampForm) : Bool :=
  form.time.isSome || (form.month.length = 2 && form.day.length = 2)

/-- The microseconds that the digits of a fraction write. -/
def microseconds (fraction : List Char) : Nat :=
  let digits := fraction.take 6
  basedNumber 10 (digits ++ List.replicate (6 - digits.length) '0')

/-- The offset in minutes that an offset form writes. -/
def offsetMinutes : Bool × List Char × List Char → Except CalendarFault Int
  | (negative, hours, minutes) =>
    let size : Int := (basedNumber 10 hours * 60 + basedNumber 10 minutes : Nat)
    let offset := if negative then -size else size
    if offset.natAbs < 1440 then .ok offset else .error (.offset offset)

/-- The date or point of time that a form writes. -/
def TimestampForm.value (form : TimestampForm) : Except CalendarFault Value := do
  let date := Date.of (basedNumber 10 form.year) (basedNumber 10 form.month)
    (basedNumber 10 form.day)
  match form.time with
  | none => return .date (← date)
  | some (hour, minute, second, fraction) =>
    let offset ← form.offset.mapM offsetMinutes
    return .datetime (← DateTime.of (← date) (basedNumber 10 hour) (basedNumber 10 minute)
      (basedNumber 10 second) (microseconds fraction) offset)

/-! ## Tags of plain scalars -/

/-- The words for true. -/
def trueWords : List String :=
  ["yes", "Yes", "YES", "true", "True", "TRUE", "on", "On", "ON"]

/-- The words for false. -/
def falseWords : List String :=
  ["no", "No", "NO", "false", "False", "FALSE", "off", "Off", "OFF"]

/-- The words for null. -/
def nullWords : List String := ["", "~", "null", "Null", "NULL"]

/-- The tag of a plain scalar. -/
def plainTag (cs : List Char) : Tag :=
  let s := String.ofList cs
  if trueWords.contains s || falseWords.contains s then .bool
  else if (float? cs).isSome then .float
  else if (integer? cs).isSome then .int
  else if s = "<<" then .merge
  else if nullWords.contains s then .null
  else if ((timestampForm? cs).map TimestampForm.isPlain).getD false then .timestamp
  else if s = "=" then .value
  else .text

end PolicyAuthoring.Yaml
