import PolicyAuthoring.Fault
import PolicyAuthoring.Value.Table
import PolicyAuthoring.Text.LowerCase

/-!
# Reading values

What a reader may ask of a value of unknown kind, and how the asking fails. A text can be asked for
its items, which are its characters, and a mapping for its items, which are its keys. Reading
entries out of a sequence takes every element for a pair of key and value.
-/

namespace PolicyAuthoring.Value

/-- The entry of a mapping under a name, if there is one. -/
def field? (v : Value) (name : String) : Except ShapeFault (Option Value) :=
  match v with
  | .mapping entries => .ok (Table.lookup entries (.text name))
  | _ => .error (.noOperation v.kind "get")

/-- The entry of a mapping under a name, or `fallback` where there is none. -/
def fieldD (v : Value) (name : String) (fallback : Value) : Except ShapeFault Value :=
  return (← v.field? name).getD fallback

/-- The entry of a mapping under a name, null where there is none. -/
def field (v : Value) (name : String) : Except ShapeFault Value := v.fieldD name .null

/-- The entry of a mapping under a name that must be there. -/
def requiredField (v : Value) (name : String) : Except ShapeFault Value :=
  match v with
  | .mapping entries =>
    match Table.lookup entries (.text name) with
    | some value => .ok value
    | none => .error (.missingEntry name)
  | .text _ | .unpaired _ | .list _ | .tuple _ => .error (.nameIsNoPosition v.kind)
  | _ => .error (.notSubscriptable v.kind)

/-- Whether a value is a mapping with an entry of this name that counts as present. -/
def hasPresent (v : Value) (name : String) : Bool :=
  match v with
  | .mapping entries => ((Table.lookup entries (.text name)).map truthy).getD false
  | _ => false

/-- The items that a value is made of, if it is made of items. -/
def items? : Value → Option (List Value)
  | .text s => some (s.toList.map fun c => .text (String.singleton c))
  | .unpaired codes => some (codes.map fun code => ofCodes [code])
  | .list items => some items
  | .tuple items => some items
  | .mapping entries => some (Table.keys entries)
  | .set members => some members
  | _ => none

/-- The items that a value is made of. -/
def items (v : Value) : Except ShapeFault (List Value) :=
  match v.items? with
  | some items => .ok items
  | none => .error (.notIterable v.kind)

/-- The items of a value that counts as present, and none of a missing one. -/
def itemsIfPresent (v : Value) : Except ShapeFault (List Value) :=
  if v.truthy then v.items else .ok []

/-- A value that can be a table key. -/
def asKey (v : Value) : Except ShapeFault Value :=
  match v.unhashablePart? with
  | none => .ok v
  | some kind => .error (.unhashable kind)

/-- Read elements as pairs of key and value into a table, counting from `index`. -/
def entriesOfPairs (table : Table Value) (index : Nat) :
    List Value → Except ShapeFault (Table Value)
  | [] => .ok table
  | element :: rest =>
    match element.items? with
    | none => .error (.entryNotSequence index)
    | some [key, value] => do
      entriesOfPairs (table.put (← key.asKey) value) (index + 1) rest
    | some items => .error (.entryLength index items.length)

/-- A value as a table: a mapping, or a sequence of pairs. -/
def entries : Value → Except ShapeFault (Table Value)
  | .mapping entries => .ok entries
  | v => do entriesOfPairs [] 0 (← v.items)

/-- The table of a value that counts as present, and the empty table for a missing one. -/
def entriesIfPresent (v : Value) : Except ShapeFault (Table Value) :=
  if v.truthy then v.entries else .ok []

/-- Whether a code point is a blank character. -/
def blankCode (code : Nat) : Bool := Text.inRanges Text.blankRanges code

/-- A text without blanks at its ends. -/
def strip : Value → Except ShapeFault Value
  | .text s => .ok (.text (Text.strip s))
  | .unpaired codes => .ok (ofCodes (Text.trimBlank blankCode codes))
  | v => .error (.noOperation v.kind "strip")

/-- A text in lower case. -/
def lower (v : Value) : Except ShapeFault CodePoints :=
  match v with
  | .text _ | .unpaired _ => .ok (Text.lowerCodes v.display)
  | _ => .error (.noOperation v.kind "lower")

/-- Whether a value is a text with something else in it than blanks. -/
def isNonBlankText : Value → Bool
  | .text s => s.toList.any fun c => !Text.isBlank c
  | .unpaired codes => codes.any fun code => !blankCode code
  | _ => false

@[simp] theorem field?_mapping (entries : Table Value) (name : String) :
    (mapping entries).field? name = .ok (Table.lookup entries (.text name)) := rfl

@[simp] theorem itemsIfPresent_list (vs : List Value) : (list vs).itemsIfPresent = .ok vs := by
  cases vs <;> rfl

@[simp] theorem entriesIfPresent_mapping (table : Table Value) :
    (mapping table).entriesIfPresent = .ok table := by
  cases table <;> rfl

@[simp] theorem strip_text (s : String) : (text s).strip = .ok (.text (Text.strip s)) := rfl

end PolicyAuthoring.Value
