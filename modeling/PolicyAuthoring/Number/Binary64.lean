/-!
# Binary64 numbers

IEEE 754 double precision numbers as exact mathematical objects. A number is a sign and the
*rank* of its magnitude: its position among all non-negative values in increasing order, zero
having rank 0. The rank is what the lower 63 bits of the interchange format hold, so there is
one representative for every number, consecutive ranks are neighbouring numbers, and a rank is
even exactly when the significand is.

Magnitudes of finite numbers are whole multiples of `2 ^ -1074`, the least positive number, and
all arithmetic below counts in that unit.
-/

namespace PolicyAuthoring

/-- The quotient `num / den` rounded to the nearest integer, a tie going to the even one. -/
def roundQuotient (num den : Nat) : Nat :=
  let floor := num / den
  let rest := num % den
  if den < 2 * rest ∨ (2 * rest = den ∧ floor % 2 = 1) then floor + 1 else floor

/-- The number of significands that share one exponent, which is `2 ^ 52`. -/
def binadeSize : Nat := 1 <<< 52

/-- The rank of infinity, one above the rank of the greatest finite number. -/
def infinityRank : Nat := 2047 * binadeSize

/-- The number of units in one, which is `2 ^ 1074`. -/
def unitsPerOne : Nat := 1 <<< 1074

/-- A double precision number, or the datum that is not a number. -/
inductive Binary64 where
  /-- The datum that is not a number. -/
  | nan
  /-- The number of this sign whose magnitude has this rank. -/
  | number (negative : Bool) (rank : Fin (infinityRank + 1))
  deriving DecidableEq

namespace Binary64

/-- The magnitude at a rank, in units of `2 ^ -1074`. The rank of infinity gets the value that
the next finite number would have. -/
def unitsAt (rank : Nat) : Nat :=
  let field := rank / binadeSize
  let fraction := rank % binadeSize
  if field = 0 then fraction else (binadeSize + fraction) <<< (field - 1)

/-- The rank of the magnitude nearest to `num / den`, a tie going to the even rank. -/
def nearestRank (num den : Nat) : Nat :=
  let units := num * unitsPerOne
  -- From the second binade on, a significand has 53 bits, and the rest is rounded away.
  let shift := (units / den).log2 - 52
  min (shift * binadeSize + roundQuotient units (den <<< shift)) infinityRank

/-- The number of the given sign and rank; every rank from `infinityRank` on is infinity. -/
def ofRank (negative : Bool) (rank : Nat) : Binary64 :=
  .number negative ⟨min rank infinityRank, by omega⟩

/-- The number nearest to `± num / den`. -/
def nearest (negative : Bool) (num den : Nat) : Binary64 :=
  ofRank negative (nearestRank num den)

/-- Positive or negative infinity. -/
def infinity (negative : Bool) : Binary64 := ofRank negative infinityRank

/-- Positive zero. -/
def zero : Binary64 := ofRank false 0

/-- The exact value in units of `2 ^ -1074`, if it is finite. -/
def units? : Binary64 → Option Int
  | .nan => none
  | .number negative rank =>
    if rank.val < infinityRank then
      some (if negative then -(unitsAt rank.val : Int) else (unitsAt rank.val : Int))
    else none

/-- The number nearest to a value given in units of `2 ^ -1074`. -/
def ofUnits (units : Int) : Binary64 :=
  nearest (units < 0) units.natAbs unitsPerOne

/-- Whether the datum is a zero of either sign. -/
def isZero : Binary64 → Bool
  | .nan => false
  | .number _ rank => rank.val = 0

/-- The value without its fractional part, if it is finite. -/
def truncate? (x : Binary64) : Option Int :=
  x.units?.map fun units => units.tdiv unitsPerOne

/-- The value as an integer, if it is one. -/
def toInt? (x : Binary64) : Option Int :=
  match x.units? with
  | some units => if units % unitsPerOne = 0 then some (units / unitsPerOne) else none
  | none => none

/-- Equality of numbers. The two zeros are equal, and the datum that is not a number equals
itself, so that it can be found again under itself in a table. -/
def same : Binary64 → Binary64 → Bool
  | .nan, .nan => true
  | .number n r, .number m s => r = s && (n = m || r.val = 0)
  | _, _ => false

/-- The rounded sum of two finite numbers. -/
def add? (x y : Binary64) : Option Binary64 := do
  return ofUnits ((← x.units?) + (← y.units?))

/-- A finite number times an integer, rounded. -/
def scale? (x : Binary64) (factor : Int) : Option Binary64 := do
  return ofUnits ((← x.units?) * factor)

/-- The number with the other sign. -/
def negate : Binary64 → Binary64
  | .nan => .nan
  | .number negative rank => .number (!negative) rank

/-- The order of the values; nothing is below or above the datum that is not a number. -/
def lt : Binary64 → Binary64 → Bool
  | .number n r, .number m s =>
    let value (negative : Bool) (rank : Nat) : Int := if negative then -(rank : Int) else rank
    value n r.val < value m s.val
  | _, _ => false

@[simp] theorem same_nan : same .nan .nan = true := rfl

/-- Equality of numbers is reflexive. -/
@[simp] theorem same_self (x : Binary64) : same x x = true := by
  cases x <;> simp [same]

end Binary64

end PolicyAuthoring
