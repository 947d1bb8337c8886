import PolicyAuthoring.Fault

/-!
# Writing JSON

The JSON text of a value, laid out with one member to a line and two spaces of indentation for each
level. The text is ASCII: every other character is escaped, a character beyond the basic plane as a
pair of surrogates. Numbers that are not finite are written as the bare words `NaN`, `Infinity` and
`-Infinity`. Sets and dates have no JSON form.
-/

namespace PolicyAuthoring.Json

/-- One escape for a code unit of 16 bits. -/
def unitEscape (unit : Nat) : List Char := '\\' :: 'u' :: Text.hexDigits 4 unit

/-- A code point inside the quotes of a JSON string. -/
def escaped (code : Nat) : List Char :=
  if code = 34 then ['\\', '"']
  else if code = 92 then ['\\', '\\']
  else if code = 10 then ['\\', 'n']
  else if code = 13 then ['\\', 'r']
  else if code = 9 then ['\\', 't']
  else if code = 12 then ['\\', 'f']
  else if code = 8 then ['\\', 'b']
  else if 32 ≤ code ∧ code < 127 then [Char.ofNat code]
  else if code < 0x10000 then unitEscape code
  else
    let offset := code - 0x10000
    unitEscape (0xD800 + offset / 0x400) ++ unitEscape (0xDC00 + offset % 0x400)

/-- A JSON string with these code points. -/
def stringText (codes : List Nat) : String :=
  String.ofList ('"' :: (codes.flatMap escaped ++ ['"']))

/-- A float as a JSON number, or as a bare word if it is not finite. -/
def numberText (x : Binary64) : String :=
  if x = .infinity false then "Infinity"
  else if x = .infinity true then "-Infinity"
  else if x = .nan then "NaN"
  else x.text

/-- The code points of a member's name. Null, truth values and numbers name a member by their JSON
text. -/
def memberName : Value → Except ShapeFault (List Nat)
  | .text s => .ok (s.toList.map Char.toNat)
  | .unpaired codes => .ok codes
  | .null => .ok ("null".toList.map Char.toNat)
  | .bool b => .ok ((if b then "true" else "false").toList.map Char.toNat)
  | .int n => .ok ((decimalText n).toList.map Char.toNat)
  | .float x => .ok ((numberText x).toList.map Char.toNat)
  | v => .error (.notAMemberName v.kind)

/-- A line break and the indentation of a level. -/
def lineBreak (level : Nat) : String :=
  String.ofList ('\n' :: List.replicate (2 * level) ' ')

/-- The lines of a container between its brackets. -/
def block (opening closing : String) (level : Nat) (lines : List String) : String :=
  if lines = [] then opening ++ closing
  else
    opening ++ lineBreak (level + 1) ++
      Text.joinWith ("," ++ lineBreak (level + 1)) lines ++ lineBreak level ++ closing

mutual

/-- The JSON text of a value whose first line stands at a level of indentation. -/
def writeAt (level : Nat) : Value → Except ShapeFault String
  | .null => .ok "null"
  | .bool b => .ok (if b then "true" else "false")
  | .int n => .ok (decimalText n)
  | .float x => .ok (numberText x)
  | .text s => .ok (stringText (s.toList.map Char.toNat))
  | .unpaired codes => .ok (stringText codes)
  | .list items => (writeItems (level + 1) items).map (block "[" "]" level)
  | .tuple items => (writeItems (level + 1) items).map (block "[" "]" level)
  | .mapping entries => (writeMembers (level + 1) entries).map (block "\x7b" "\x7d" level)
  | .set _ => .error (.notWritable .set)
  | .date _ => .error (.notWritable .date)
  | .datetime _ => .error (.notWritable .datetime)
termination_by structural v => v

/-- The JSON texts of the items of a list. -/
def writeItems (level : Nat) : List Value → Except ShapeFault (List String)
  | [] => .ok []
  | v :: rest => do
    let line ← writeAt level v
    return line :: (← writeItems level rest)
termination_by structural vs => vs

/-- The JSON texts of the members of an object. -/
def writeMembers (level : Nat) : List (Value × Value) → Except ShapeFault (List String)
  | [] => .ok []
  | e :: rest => do
    let line ← writeMember level e
    return line :: (← writeMembers level rest)
termination_by structural es => es

/-- The JSON text of a member of an object. -/
def writeMember (level : Nat) : Value × Value → Except ShapeFault String
  | (k, v) => do
    let name ← memberName k
    return stringText name ++ ": " ++ (← writeAt level v)
termination_by structural e => e

end

/-- The JSON text of a value. -/
def write (v : Value) : Except ShapeFault String := writeAt 0 v

end PolicyAuthoring.Json
