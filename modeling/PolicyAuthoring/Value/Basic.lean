import PolicyAuthoring.Calendar

/-!
# Values

The data that catalogs, selections and policy documents are written in. Files carry no schema, so
a field can hold any value and every reader says what it accepts. `Value.Kind` names the kinds of
value, `Value.truthy` tells the values that count as present from the ones that count as missing,
`Value.same` is the equality by which table keys are compared, and `Value.equals` the one by which
names and identifiers are searched for.
-/

namespace PolicyAuthoring

/-- A value of any kind. -/
inductive Value where
  /-- No value. -/
  | null
  /-- A truth value. -/
  | bool (b : Bool)
  /-- An integer of any size. -/
  | int (n : Int)
  /-- A double precision number. -/
  | float (x : Binary64)
  /-- A text. -/
  | text (s : String)
  /-- A text with surrogate code points in it, which an escape can write although no `String` holds
  one. -/
  | unpaired (codes : List Nat)
  /-- A list. -/
  | list (items : List Value)
  /-- A tuple: a sequence that may be a table key. -/
  | tuple (items : List Value)
  /-- A mapping, its entries in order. -/
  | mapping (entries : List (Value × Value))
  /-- A set, its members in order of their insertion. -/
  | set (members : List Value)
  /-- A calendar day. -/
  | date (d : Date)
  /-- A point of time. -/
  | datetime (t : DateTime)

/-- The entries of an ordered table, whose keys are values. Keys are compared by `Value.same`. -/
abbrev Table (α : Type) := List (Value × α)

namespace Value

/-- The kinds of value. -/
inductive Kind where
  | null | bool | int | float | text | list | tuple | mapping | set | date | datetime
  deriving DecidableEq

/-- The name of a kind in messages. -/
def Kind.name : Kind → String
  | .null => "NoneType"
  | .bool => "bool"
  | .int => "int"
  | .float => "float"
  | .text => "str"
  | .list => "list"
  | .tuple => "tuple"
  | .mapping => "dict"
  | .set => "set"
  | .date => "datetime.date"
  | .datetime => "datetime.datetime"

/-- The name of a kind in messages that leave out where the kind comes from. -/
def Kind.shortName : Kind → String
  | .date => "date"
  | .datetime => "datetime"
  | kind => kind.name

/-- The kind of a value. -/
def kind : Value → Kind
  | .null => .null
  | .bool _ => .bool
  | .int _ => .int
  | .float _ => .float
  | .text _ => .text
  | .unpaired _ => .text
  | .list _ => .list
  | .tuple _ => .tuple
  | .mapping _ => .mapping
  | .set _ => .set
  | .date _ => .date
  | .datetime _ => .datetime

/-- Whether a value counts as present. Null, false, zero and everything empty do not. -/
def truthy : Value → Bool
  | .null => false
  | .bool b => b
  | .int n => n ≠ 0
  | .float x => !x.isZero
  | .text s => s ≠ ""
  | .unpaired codes => codes ≠ []
  | .list items => !items.isEmpty
  | .tuple items => !items.isEmpty
  | .mapping entries => !entries.isEmpty
  | .set members => !members.isEmpty
  | .date _ => true
  | .datetime _ => true

/-- The value itself if it counts as present, and `fallback` otherwise. -/
def orElse (v fallback : Value) : Value := if v.truthy then v else fallback

/-- Whether a value is a text. -/
def isText (v : Value) : Bool := v.kind = .text

/-- Whether a value is a list or a tuple. -/
def isSequence : Value → Bool
  | .list _ => true
  | .tuple _ => true
  | _ => false

/-- Whether a value says nothing: null, an empty text or an empty sequence. -/
def isEmpty : Value → Bool
  | .null => true
  | .text s => s = ""
  | .list items => items.isEmpty
  | .tuple items => items.isEmpty
  | _ => false

/-- The text with these code points. -/
def ofCodes (codes : List Nat) : Value :=
  if codes.all Nat.isValidChar then .text (String.ofList (codes.map Char.ofNat))
  else .unpaired codes

/-- The code points of a text. -/
def codes? : Value → Option (List Nat)
  | .text s => some (s.toList.map Char.toNat)
  | .unpaired codes => some codes
  | _ => none

mutual

/-- The innermost reason why a value cannot be a table key: the kind of a list, mapping or set
that it is or that a tuple holds. -/
def unhashablePart? : Value → Option Kind
  | .list _ => some .list
  | .mapping _ => some .mapping
  | .set _ => some .set
  | .tuple items => firstUnhashable? items
  | _ => none

/-- The reason why a tuple of these items cannot be a table key. -/
def firstUnhashable? : List Value → Option Kind
  | [] => none
  | v :: rest =>
    match unhashablePart? v with
    | some kind => some kind
    | none => firstUnhashable? rest

end

/-- Whether a value can be a table key. -/
def hashable (v : Value) : Bool := v.unhashablePart?.isNone

/-- The integer that a truth value, an integer or an integral float stands for. -/
def asInt? : Value → Option Int
  | .bool b => some (if b then 1 else 0)
  | .int n => some n
  | .float x => x.toInt?
  | _ => none

mutual

/-- Equality of values. Truth values are the numbers 0 and 1, integers and floats are equal as
numbers, and mappings and sets are equal whatever their order. -/
def same : Value → Value → Bool
  | .null, w => w.kind = .null
  | .bool b, w => w.asInt? = some (if b then 1 else 0)
  | .int n, w => w.asInt? = some n
  | .float x, .float y => x.same y
  | .float x, w => x.toInt?.isSome && x.toInt? = w.asInt?
  | .text s, .text t => s = t
  | .unpaired a, .unpaired b => a = b
  | .list a, .list b => sameItems a b
  | .tuple a, .tuple b => sameItems a b
  | .mapping a, .mapping b => a.length = b.length && entriesAmong a b
  | .set a, .set b => a.length = b.length && membersAmong a b
  | .date d, .date e => d = e
  | .datetime t, .datetime u => t.same u
  | _, _ => false
termination_by structural v => v

/-- Whether two sequences agree item by item. -/
def sameItems : List Value → List Value → Bool
  | [], [] => true
  | v :: vs, w :: ws => same v w && sameItems vs ws
  | _, _ => false
termination_by structural vs => vs

/-- Whether every entry is also among the others. -/
def entriesAmong : List (Value × Value) → List (Value × Value) → Bool
  | [], _ => true
  | e :: rest, others => others.any (fun o => sameEntry e o) && entriesAmong rest others
termination_by structural es => es

/-- Whether two entries agree in key and value. -/
def sameEntry : Value × Value → Value × Value → Bool
  | (k, v), o => same k o.1 && same v o.2
termination_by structural e => e

/-- Whether every member is also among the others. -/
def membersAmong : List Value → List Value → Bool
  | [], _ => true
  | v :: rest, others => others.any (fun o => same v o) && membersAmong rest others
termination_by structural vs => vs

end

/-- Whether a value is the datum that is not a number. -/
def isNaN : Value → Bool
  | .float .nan => true
  | _ => false

/-- Equality as a search by comparison sees it. A table finds the datum that is not a number under
itself, a search finds it under nothing. -/
def equals (v w : Value) : Bool := !v.isNaN && v.same w

@[simp] theorem truthy_text (s : String) : (text s).truthy = decide (s ≠ "") := by
  simp [truthy]

@[simp] theorem same_text (s t : String) : same (.text s) (.text t) = decide (s = t) := by
  simp [same]

@[simp] theorem hashable_text (s : String) : (text s).hashable = true := rfl

/-- What is left after a fallback for missing values is the value or the fallback. -/
theorem orElse_eq (v fallback : Value) : v.orElse fallback = v ∨ v.orElse fallback = fallback := by
  unfold orElse
  split <;> simp

@[simp] theorem orElse_self (v : Value) : v.orElse v = v := by
  simp [orElse]

/-- A value with a fallback counts as present if the value or the fallback does. -/
theorem truthy_orElse (v fallback : Value) :
    (v.orElse fallback).truthy = (v.truthy || fallback.truthy) := by
  rw [orElse]
  cases hv : v.truthy with
  | true => rw [if_pos rfl, hv, Bool.true_or]
  | false => rw [if_neg Bool.false_ne_true, Bool.false_or]

/-- A value that does not count as missing needs no fallback. -/
theorem orElse_of_truthy {v : Value} (h : v.truthy = true) (fallback : Value) :
    v.orElse fallback = v :=
  if_pos h

/-- A fallback may itself have a fallback, or the value with its fallback may have one. -/
theorem orElse_assoc (u v w : Value) : (u.orElse v).orElse w = u.orElse (v.orElse w) := by
  unfold orElse
  by_cases h : u.truthy = true <;> simp [h]

/-- A fallback that has been filled in is not needed again. -/
theorem orElse_orElse (v fallback : Value) :
    (v.orElse fallback).orElse fallback = v.orElse fallback := by
  rw [orElse_assoc, orElse_self]

end Value

end PolicyAuthoring
