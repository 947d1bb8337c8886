import PolicyAuthoring.Value.Table
import PolicyAuthoring.Yaml.Node
import PolicyAuthoring.Yaml.Tagged

/-!
# Reading YAML

The value that a YAML text writes. Under the merge key a mapping takes over the entries of other
mappings: they come before its own, which override them, and where several are merged the earlier
ones override the later ones. A key given twice has its last value at its first place. Every text
that JSON allows is read in the same way, for YAML has the forms of JSON.
-/

namespace PolicyAuthoring.Yaml

namespace Node

/-- The entries of a mapping: those merged in and its own. -/
structure Entries where
  /-- The entries merged in. -/
  merged : List (Value × Value) := []
  /-- The entries of the mapping itself. -/
  own : List (Value × Value) := []

/-- The entries in order. -/
def Entries.all (e : Entries) : List (Value × Value) := e.merged ++ e.own

/-- A key of a mapping. The value key is an ordinary text here. -/
def keyOf (key : Value) : Except YamlFault Value :=
  match key.kind with
  | .list | .mapping | .set => .error .malformed
  | _ => .ok key

mutual

/-- The value of a node. -/
def value : Node → Except YamlFault Value
  | .scalar tag codes => scalarValue tag codes
  | .sequence .sequence items => do return .list (← values items)
  | .sequence .pairs items => do return .list (← pairs items)
  | .sequence _ _ => .error .malformed
  | .mapping .mapping entries => do return .mapping (Table.ofEntries (← entriesOf entries).all)
  | .mapping .set entries => do
    return .set (Table.keys (Table.ofEntries (← entriesOf entries).all))
  | .mapping _ _ => .error .malformed
termination_by structural n => n

/-- The values of nodes. -/
def values : List Node → Except YamlFault (List Value)
  | [] => .ok []
  | n :: rest => do
    let v ← value n
    return v :: (← values rest)
termination_by structural ns => ns

/-- The pairs that nodes give. -/
def pairs : List Node → Except YamlFault (List Value)
  | [] => .ok []
  | n :: rest => do
    let pair ← pairOf n
    return pair :: (← pairs rest)
termination_by structural ns => ns

/-- The pair of the key and the value of a mapping of one entry. -/
def pairOf : Node → Except YamlFault Value
  | .mapping _ [(k, v)] => do return .tuple [← value k, ← value v]
  | _ => .error .malformed
termination_by structural n => n

/-- The entries of a mapping. -/
def entriesOf : List (Node × Node) → Except YamlFault Entries
  | [] => .ok {}
  | e :: rest => do
    let first ← entryOf e
    let others ← entriesOf rest
    return { merged := first.merged ++ others.merged, own := first.own ++ others.own }
termination_by structural es => es

/-- The entries that one entry of a mapping gives. -/
def entryOf : Node × Node → Except YamlFault Entries
  | (.scalar .merge _, v) | (.sequence .merge _, v) | (.mapping .merge _, v) => do
    return { merged := ← mergedOf v }
  | (.scalar .value codes, v) => do return { own := [(.ofCodes codes, ← value v)] }
  | (k, v) => do
    let key ← keyOf (← value k)
    return { own := [(key, ← value v)] }
termination_by structural e => e

/-- The entries that are merged in from a node: a mapping, or a sequence of mappings. -/
def mergedOf : Node → Except YamlFault (List (Value × Value))
  | .mapping _ entries => do return (← entriesOf entries).all
  | .sequence _ items => mergedOfAll items
  | .scalar _ _ => .error .malformed
termination_by structural n => n

/-- The entries that are merged in from a sequence of mappings, those of the last one first. -/
def mergedOfAll : List Node → Except YamlFault (List (Value × Value))
  | [] => .ok []
  | n :: rest => do
    let first ← mappingEntriesOf n
    return (← mergedOfAll rest) ++ first
termination_by structural ns => ns

/-- The entries that are merged in from a mapping. -/
def mappingEntriesOf : Node → Except YamlFault (List (Value × Value))
  | .mapping _ entries => do return (← entriesOf entries).all
  | _ => .error .malformed
termination_by structural n => n

end

end Node

/-- Whether a character may stand in a YAML text. -/
def isAllowed (c : Char) : Bool :=
  let code := c.toNat
  code = 9 || code = 10 || code = 13 || (32 ≤ code && code ≤ 126) || code = 0x85 ||
    (0xA0 ≤ code && code ≤ 0xD7FF) || (0xE000 ≤ code && code ≤ 0xFFFD) || 0x10000 ≤ code

/-- A text with every line end of a carriage return, alone or before a line feed, made a line
feed. -/
def lineFeeds : List Char → List Char
  | [] => []
  | '\r' :: '\n' :: rest => '\n' :: lineFeeds rest
  | '\r' :: rest => '\n' :: lineFeeds rest
  | c :: rest => c :: lineFeeds rest

/-- The value that a text writes; a text without a document writes null. -/
def read (s : String) : Except YamlFault Value :=
  let cs := lineFeeds s.toList
  if cs.all isAllowed then
    match (tokens? cs).bind node? with
    | some (some node) => node.value
    | some none => .ok .null
    | none => .error .malformed
  else .error .malformed

end PolicyAuthoring.Yaml
