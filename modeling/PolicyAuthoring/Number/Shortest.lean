import PolicyAuthoring.Number.Binary64

/-!
# Decimal text of numbers

The text of a finite number has the fewest digits that read back as the same number, and among
those the digits nearest to it. A decimal reads back as the number exactly when it lies between
the midpoints to the two neighbouring numbers; the midpoints themselves belong to the number
when its rank is even.

For one digit, two digits and so on, the two decimals of that length around the number are tried
(`Binary64.shortest`). Everything is counted in units of `2 ^ -1075 * 10 ^ -400`, in which
numbers, midpoints and the decimals tried are whole.
-/

namespace PolicyAuthoring

/-- The decimal digits of a natural number, without leading zeros; zero has the digit `0`. -/
def decimalDigits (n : Nat) : List Char := Nat.toDigits 10 n

/-- The text of an integer in decimal. -/
def decimalText (n : Int) : String :=
  if n < 0 then String.ofList ('-' :: decimalDigits n.natAbs)
  else String.ofList (decimalDigits n.natAbs)

namespace Binary64

/-- A decimal `digits * 10 ^ exponent`. -/
structure Decimal where
  /-- The digits, read as one natural number. -/
  digits : Nat
  /-- The power of ten that the digits count. -/
  exponent : Int
  deriving DecidableEq

/-- The decimals that read back as one number. -/
structure Window where
  /-- The lower end. -/
  low : Nat
  /-- The upper end. -/
  high : Nat
  /-- Whether the ends belong to it. -/
  closed : Bool

/-- Whether a value lies in the window. -/
def Window.contains (w : Window) (x : Nat) : Bool :=
  (w.low < x && x < w.high) || (w.closed && (x = w.low || x = w.high))

/-- A power of ten. -/
def tenTo (n : Nat) : Nat := Nat.pow 10 n

/-- The scale of the exact arithmetic: decimals count in units of `10 ^ -400`. -/
def decimalShift : Nat := 400

/-- The step between decimals whose last digit stands at a place, counted from `10 ^ -400`. -/
def decimalStep (place : Nat) : Nat := tenTo place <<< 1075

/-- The window of the number with this rank. -/
def windowAt (rank : Nat) : Window where
  low := (unitsAt (rank - 1) + unitsAt rank) * tenTo decimalShift
  high := (unitsAt rank + unitsAt (rank + 1)) * tenTo decimalShift
  closed := rank % 2 = 0

/-- Of the two multiples of `step` around `value`, the nearer one that lies in the window; an
exact tie goes to the even multiple. -/
def Window.multiple? (w : Window) (value step : Nat) : Option Nat :=
  let lower := value / step
  let upper := lower + 1
  match w.contains (lower * step), w.contains (upper * step) with
  | true, true => some (roundQuotient value step)
  | true, false => some lower
  | false, true => some upper
  | false, false => none

/-- Try the place of the last digit, and one place further down for each try that fails. -/
def shortestFrom (w : Window) (value : Nat) : (tries place : Nat) → Decimal
  | 0, place => ⟨value / decimalStep place, (place : Int) - decimalShift⟩
  | tries + 1, place =>
    match w.multiple? value (decimalStep place) with
    | some digits => ⟨digits, (place : Int) - decimalShift⟩
    | none => shortestFrom w value tries (place - 1)

/-- The shortest decimal that reads back as the finite, positive number of this rank. Seventeen
digits always suffice. -/
def shortest (rank : Nat) : Decimal :=
  let value := 2 * unitsAt rank * tenTo decimalShift
  let lead := (decimalDigits (value / decimalStep 0)).length - 1
  shortestFrom (windowAt rank) value 17 lead

/-- A decimal in positional notation, with at least one digit on either side of the point. -/
def positional (digits : List Char) (exponent : Int) : List Char :=
  if 0 ≤ exponent then
    digits ++ List.replicate exponent.toNat '0' ++ ['.', '0']
  else
    let places := exponent.natAbs
    if digits.length ≤ places then
      ['0', '.'] ++ List.replicate (places - digits.length) '0' ++ digits
    else
      digits.take (digits.length - places) ++ '.' :: digits.drop (digits.length - places)

/-- An exponent with its sign and at least two digits. -/
def exponentText (exponent : Int) : List Char :=
  let digits := decimalDigits exponent.natAbs
  (if exponent < 0 then '-' else '+') :: (List.replicate (2 - digits.length) '0' ++ digits)

/-- A decimal in exponent notation, the point standing after the first digit if others follow. -/
def scientific (digits : List Char) (lead : Int) : List Char :=
  let mantissa := match digits with
    | first :: second :: rest => first :: '.' :: second :: rest
    | short => short
  mantissa ++ 'e' :: exponentText lead

/-- The digits of a decimal without its trailing zeros, and the exponent that belongs to them. -/
def trimmed (d : Decimal) : List Char × Int :=
  let digits := decimalDigits d.digits
  let kept := (digits.reverse.dropWhile (· = '0')).reverse
  (kept, d.exponent + (digits.length - kept.length : Nat))

/-- The text of a positive magnitude: positional when the exponent of the leading digit is at
least -4 and below 16. -/
def magnitudeText (rank : Nat) : List Char :=
  let (digits, exponent) := trimmed (shortest rank)
  let lead := exponent + digits.length - 1
  if -4 ≤ lead ∧ lead < 16 then positional digits exponent else scientific digits lead

/-- The text of a number. -/
def text : Binary64 → String
  | .nan => "nan"
  | .number negative rank =>
    let magnitude :=
      if rank.val = 0 then ['0', '.', '0']
      else if rank.val = infinityRank then ['i', 'n', 'f']
      else magnitudeText rank.val
    String.ofList (if negative then '-' :: magnitude else magnitude)

/-- The number nearest to `digits * 10 ^ exponent`. Decimals far outside the range of finite
numbers are decided by their length alone. -/
def ofDecimal (negative : Bool) (digits : Nat) (exponent : Int) : Binary64 :=
  let lead := exponent + (decimalDigits digits).length
  if digits = 0 ∨ lead < -decimalShift then ofRank negative 0
  else if decimalShift < lead then infinity negative
  else if 0 ≤ exponent then nearest negative (digits * tenTo exponent.toNat) 1
  else nearest negative digits (tenTo exponent.natAbs)

end Binary64

end PolicyAuthoring
