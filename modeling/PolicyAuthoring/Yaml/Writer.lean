import PolicyAuthoring.Yaml.Style

/-!
# Writing YAML

The YAML text of a mapping in block form: one entry or item to a line, with two more spaces of
indentation for each mapping inside another. The items of a sequence stand under their key without
indentation. Entries keep their order, and empty containers are written in brackets.
-/

namespace PolicyAuthoring.Yaml

/-! ## Scalars -/

/-- The short name of a tag. -/
def Tag.shorthand : Tag → String
  | .null => "!!null"
  | .bool => "!!bool"
  | .int => "!!int"
  | .float => "!!float"
  | .timestamp => "!!timestamp"
  | .sequence => "!!seq"
  | .mapping => "!!map"
  | .set => "!!set"
  | .pairs => "!!omap"
  | .text | .merge | .value | .unknown => "!!str"

/-- A scalar as it is written. -/
structure Scalar where
  /-- What it is. -/
  tag : Tag
  /-- The code points of its text. -/
  codes : List Nat
  /-- How it is marked off. -/
  style : Style

/-- A scalar that is no text and written plain. -/
def Scalar.plain (tag : Tag) (s : String) : Scalar := ⟨tag, s.toList.map Char.toNat, .plain⟩

/-- A scalar that is a text. -/
def Scalar.text (codes : List Nat) : Scalar := ⟨.text, codes, .ofCodes codes⟩

/-- The text of a float. An exponent always has a point before it. -/
def floatText (x : Binary64) : String :=
  if x = .nan then ".nan"
  else if x = .infinity false then ".inf"
  else if x = .infinity true then "-.inf"
  else
    let cs := x.text.toList
    if cs.contains '.' then x.text
    else
      String.ofList (cs.flatMap fun c => if c = 'e' then ['.', '0', c] else [c])

/-- The scalar for a value, if it is no container. -/
def Scalar.ofValue? : Value → Option Scalar
  | .null => some (.plain .null "null")
  | .bool b => some (.plain .bool (if b then "true" else "false"))
  | .int n => some (.plain .int (decimalText n))
  | .float x => some (.plain .float (floatText x))
  | .text s => some (.text (s.toList.map Char.toNat))
  | .unpaired codes => some (.text codes)
  | .date d => some (.plain .timestamp d.text)
  | .datetime t => some (.plain .timestamp (t.text " "))
  | .list _ | .tuple _ | .mapping _ | .set _ => none

/-- The length from which a key, with the shorthand of its tag, is no longer simple. -/
def simpleKeyLimit : Nat := 128

/-- Whether a scalar can stand before a colon on one line. -/
def Scalar.isSimpleKey (s : Scalar) : Bool :=
  s.codes ≠ [] && !s.codes.any (fun code => isBreak (Char.ofNat code)) &&
    s.codes.length + s.tag.shorthand.length < simpleKeyLimit

/-! ## Containers -/

/-- The columns by which what is inside a container is indented. -/
def indentStep : Nat := 2

/-- Where a node stands. -/
structure Place where
  /-- The indentation of the container that the node is in. -/
  indent : Nat
  /-- The column after the mark or key before the node. -/
  column : Nat
  /-- Whether a container can begin on the same line. -/
  sameLine : Bool

/-- The place after a mark of one character at the beginning of a line. -/
def Place.afterMark (indent : Nat) : Place := ⟨indent, indent + 1, true⟩

/-- The place after a key and its colon. -/
def Place.afterKey (indent column : Nat) : Place := ⟨indent, column, false⟩

/-- Lines at an indentation, the first one on the line of the node if that is allowed. -/
def Place.block (place : Place) (indent : Nat) (lines : List (List Char)) : List Char :=
  match place.sameLine, lines with
  | true, first :: rest => ' ' :: first ++ rest.flatMap (newLine indent ++ ·)
  | _, lines => lines.flatMap (newLine indent ++ ·)

/-- A scalar at a place. -/
def Place.scalar (place : Place) (s : Scalar) : List Char :=
  ' ' :: s.style.text ⟨place.indent + indentStep, true⟩ (place.column + 1) s.codes

/-- The text of a key that can stand before a colon on one line, which begins at `column`. -/
def simpleKey? (column : Nat) : Value → Option (List Char)
  | .tuple [] => some ['[', ']']
  | key =>
    ((Scalar.ofValue? key).filter Scalar.isSimpleKey).map fun s =>
      s.style.text ⟨column, false⟩ column s.codes

mutual

/-- A node at a place, with the space or the line end before it. -/
def node (place : Place) : Value → List Char
  | .list [] => [' ', '[', ']']
  | .tuple [] => [' ', '[', ']']
  | .mapping [] => [' ', '\x7b', '\x7d']
  | .set [] => " !!set \x7b\x7d".toList
  | .list items =>
    -- Under a key the dashes stand at the indentation of the key.
    let indent := if place.sameLine then place.indent + indentStep else place.indent
    place.block indent (itemLines indent items)
  | .tuple items =>
    let indent := if place.sameLine then place.indent + indentStep else place.indent
    place.block indent (itemLines indent items)
  | .mapping entries =>
    let indent := place.indent + indentStep
    place.block indent (entryLines indent entries)
  | .set members =>
    let indent := place.indent + indentStep
    " !!set".toList ++ (memberLines indent members).flatMap (newLine indent ++ ·)
  | v => ((Scalar.ofValue? v).map place.scalar).getD []
termination_by structural v => v

/-- The items of a sequence. -/
def itemLines (indent : Nat) : List Value → List (List Char)
  | [] => []
  | v :: rest => ('-' :: node (.afterMark indent) v) :: itemLines indent rest
termination_by structural vs => vs

/-- The entries of a mapping. -/
def entryLines (indent : Nat) : List (Value × Value) → List (List Char)
  | [] => []
  | e :: rest => entryLine indent e :: entryLines indent rest
termination_by structural es => es

/-- An entry of a mapping. A key that is not simple stands on lines of its own after a question
mark. -/
def entryLine (indent : Nat) : Value × Value → List Char
  | (k, v) =>
    match simpleKey? indent k with
    | some key => key ++ ':' :: node (.afterKey indent (indent + key.length + 1)) v
    | none =>
      '?' :: node (.afterMark indent) k ++ newLine indent ++ ':' :: node (.afterMark indent) v
termination_by structural e => e

/-- The members of a set, as keys without a value. -/
def memberLines (indent : Nat) : List Value → List (List Char)
  | [] => []
  | v :: rest =>
    (match simpleKey? indent v with
    | some key => key ++ ": null".toList
    | none => '?' :: node (.afterMark indent) v ++ newLine indent ++ ": null".toList) ::
      memberLines indent rest
termination_by structural vs => vs

end

/-- The YAML text of a mapping with these entries. -/
def writeMapping (entries : List (Value × Value)) : String :=
  if entries.isEmpty then "\x7b\x7d\n"
  else String.ofList ((entryLines 0 entries).flatMap (· ++ ['\n']))

end PolicyAuthoring.Yaml
