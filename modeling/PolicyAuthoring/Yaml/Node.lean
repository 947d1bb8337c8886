import PolicyAuthoring.Yaml.Layout
import PolicyAuthoring.Yaml.Scalar

/-!
# YAML nodes

The tree of nodes that the tokens of a document make. An alias stands for the node with its anchor,
which has to be complete before; an anchor is given to one node only. A node without a tag is tagged
by what it is, and a plain scalar by what it reads as.
-/

namespace PolicyAuthoring.Yaml

/-- A node of a document. -/
inductive Node where
  /-- A scalar, given by its code points. -/
  | scalar (tag : Tag) (codes : List Nat)
  /-- A sequence of nodes. -/
  | sequence (tag : Tag) (items : List Node)
  /-- A mapping of nodes to nodes. -/
  | mapping (tag : Tag) (entries : List (Node × Node))

/-- The tokens that are left of a document, and what is known while its nodes are read. -/
structure NodeReader where
  /-- The tokens that are left. -/
  tokens : List Token
  /-- The nodes that have an anchor. -/
  anchors : List (String × Node) := []
  /-- What the handles of tags stand for. -/
  handles : List (String × String) := []

/-- The anchor and the tag in front of a node. -/
structure Properties where
  /-- The anchor. -/
  anchor : Option String := none
  /-- The full name of the tag. -/
  tag : Option String := none

namespace NodeReader

/-- Drop the first token. -/
def advance (r : NodeReader) : NodeReader := { r with tokens := r.tokens.tail }

/-- What the handles of tags stand for unless a directive says otherwise. -/
def defaultHandles : List (String × String) := [("!", "!"), ("!!", tagSpace)]

/-- The full name of a tag. -/
def tagName? (r : NodeReader) (handle : Option String) (suffix : String) : Option String :=
  match handle with
  | none => some suffix
  | some handle => (r.handles.lookup handle).map (· ++ suffix)

/-- The anchor and the tag in front of a node, in either order. -/
def properties (r : NodeReader) : Option (Properties × NodeReader) :=
  match r.tokens with
  | .anchor anchor :: .tag handle suffix :: _ => do
    let tag ← r.tagName? handle suffix
    return ({ anchor := some anchor, tag := some tag }, r.advance.advance)
  | .tag handle suffix :: .anchor anchor :: _ => do
    let tag ← r.tagName? handle suffix
    return ({ anchor := some anchor, tag := some tag }, r.advance.advance)
  | .anchor anchor :: _ => some ({ anchor := some anchor }, r.advance)
  | .tag handle suffix :: _ => do
    return ({ tag := some (← r.tagName? handle suffix) }, r.advance)
  | _ => some ({}, r)

/-- Give a node its anchor. -/
def register (r : NodeReader) (anchor : Option String) (node : Node) : Option (Node × NodeReader) :=
  match anchor with
  | none => some (node, r)
  | some name =>
    if (r.anchors.lookup name).isSome then none
    else some (node, { r with anchors := (name, node) :: r.anchors })

/-- Whether a node has no tag, or the tag that says only that it has one. -/
def isUntagged (tag : Option String) : Bool := tag = none || tag = some "!"

/-- The tag of a scalar. -/
def scalarTag (tag : Option String) (plain : Bool) (codes : List Nat) : Tag :=
  match tag with
  | some "!" => plainTag (codes.map Char.ofNat)
  | some name => .ofName name
  | none => if plain then plainTag (codes.map Char.ofNat) else .text

/-- The tag of a collection. -/
def collectionTag (tag : Option String) (usual : Tag) : Tag :=
  if isUntagged tag then usual else (tag.map Tag.ofName).getD usual

/-- A node that is not written. -/
def emptyNode : Node := .scalar .null []

/-- Whether the first token is one after which a block entry is empty. -/
def endsEntry (r : NodeReader) : Bool :=
  match r.tokens with
  | .blockEntry :: _ | .blockEnd :: _ => true
  | _ => false

/-- Whether the first token is one after which a key or a value of a block is empty. -/
def endsPart (r : NodeReader) : Bool :=
  match r.tokens with
  | .key :: _ | .value :: _ | .blockEnd :: _ => true
  | _ => false

/-- Whether the first token is one after which the key of a pair in brackets is empty. -/
def endsFlowKey (r : NodeReader) : Bool :=
  match r.tokens with
  | .value :: _ | .flowEntry :: _ | .flowSequenceEnd :: _ | .flowMappingEnd :: _ => true
  | _ => false

/-- Whether the first token is one after which the value of a pair in brackets is empty. -/
def endsFlowValue (r : NodeReader) : Bool :=
  match r.tokens with
  | .flowEntry :: _ | .flowSequenceEnd :: _ | .flowMappingEnd :: _ => true
  | _ => false

/-- A node that is not written, after an anchor or a tag. -/
def unwritten (r : NodeReader) (properties : Properties) : Option (Node × NodeReader) :=
  if properties.anchor.isSome ∨ properties.tag.isSome then
    some (.scalar (scalarTag properties.tag true []) [], r)
  else none

/-- What follows the comma before an item, which the first item does not have. -/
def afterComma (r : NodeReader) (first : Bool) : Option NodeReader :=
  if first then some r
  else
    match r.tokens with
    | .flowEntry :: _ => some r.advance
    | _ => none

mutual

/-- Read a node. Outside of brackets it may be a block, and as a value it may be a sequence whose
dashes are not indented. -/
def node (block indentless : Bool) : Nat → NodeReader → Option (Node × NodeReader)
  | 0, _ => none
  | fuel + 1, r =>
    match r.tokens with
    | .alias name :: _ => (r.anchors.lookup name).map fun node => (node, r.advance)
    | _ => do
      let (properties, r) ← r.properties
      let tag := properties.tag
      let (node, r) ← match r.tokens with
        | .blockEntry :: _ =>
          if indentless then do
            let (items, r) ← indentlessItems fuel r
            pure (.sequence (collectionTag tag .sequence) items, r)
          else r.unwritten properties
        | .scalar plain codes :: _ => pure (.scalar (scalarTag tag plain codes) codes, r.advance)
        | .flowSequenceStart :: _ => do
          let (items, r) ← flowItems fuel true r.advance
          pure (.sequence (collectionTag tag .sequence) items, r)
        | .flowMappingStart :: _ => do
          let (entries, r) ← flowEntries fuel true r.advance
          pure (.mapping (collectionTag tag .mapping) entries, r)
        | .blockSequenceStart :: _ =>
          if block then do
            let (items, r) ← blockItems fuel r.advance
            pure (.sequence (collectionTag tag .sequence) items, r)
          else r.unwritten properties
        | .blockMappingStart :: _ =>
          if block then do
            let (entries, r) ← blockEntries fuel r.advance
            pure (.mapping (collectionTag tag .mapping) entries, r)
          else r.unwritten properties
        | _ => r.unwritten properties
      -- A node inside itself is never found: its anchor is known only from here on.
      r.register properties.anchor node

/-- Read the items of a block sequence and its end. -/
def blockItems : Nat → NodeReader → Option (List Node × NodeReader)
  | 0, _ => none
  | fuel + 1, r =>
    match r.tokens with
    | .blockEntry :: _ => do
      let r := r.advance
      let (item, r) ← if r.endsEntry then some (emptyNode, r) else node true false fuel r
      let (items, r) ← blockItems fuel r
      return (item :: items, r)
    | .blockEnd :: _ => some ([], r.advance)
    | _ => none

/-- Read the items of a sequence whose dashes are not indented. -/
def indentlessItems : Nat → NodeReader → Option (List Node × NodeReader)
  | 0, _ => none
  | fuel + 1, r =>
    match r.tokens with
    | .blockEntry :: _ => do
      let r := r.advance
      let (item, r) ←
        if r.endsEntry || r.endsPart then some (emptyNode, r) else node true false fuel r
      let (items, r) ← indentlessItems fuel r
      return (item :: items, r)
    | _ => some ([], r)

/-- Read the entries of a block mapping and its end. -/
def blockEntries : Nat → NodeReader → Option (List (Node × Node) × NodeReader)
  | 0, _ => none
  | fuel + 1, r =>
    match r.tokens with
    | .key :: _ => do
      let r := r.advance
      let (key, r) ← if r.endsPart then some (emptyNode, r) else node true true fuel r
      let (value, r) ← blockValue fuel r
      let (entries, r) ← blockEntries fuel r
      return ((key, value) :: entries, r)
    | .blockEnd :: _ => some ([], r.advance)
    | _ => none

/-- Read the value of an entry of a block mapping. -/
def blockValue : Nat → NodeReader → Option (Node × NodeReader)
  | 0, _ => none
  | fuel + 1, r =>
    match r.tokens with
    | .value :: _ =>
      let r := r.advance
      if r.endsPart then some (emptyNode, r) else node true true fuel r
    | _ => some (emptyNode, r)

/-- Read the items of a sequence in brackets and its end. Before every item but the first there has
to be a comma. An item with a key is a mapping of one entry. -/
def flowItems : Nat → Bool → NodeReader → Option (List Node × NodeReader)
  | 0, _, _ => none
  | fuel + 1, first, r => do
    if let .flowSequenceEnd :: _ := r.tokens then return ([], r.advance)
    let r ← r.afterComma first
    match r.tokens with
    | .flowSequenceEnd :: _ => return ([], r.advance)
    | .key :: _ =>
      let r := r.advance
      let (key, r) ← if r.endsFlowKey then some (emptyNode, r) else node false false fuel r
      let (value, r) ← flowValue fuel r
      let (items, r) ← flowItems fuel false r
      return (.mapping .mapping [(key, value)] :: items, r)
    | _ =>
      let (item, r) ← node false false fuel r
      let (items, r) ← flowItems fuel false r
      return (item :: items, r)

/-- Read the entries of a mapping in brackets and its end. Before every entry but the first there
has to be a comma. -/
def flowEntries : Nat → Bool → NodeReader → Option (List (Node × Node) × NodeReader)
  | 0, _, _ => none
  | fuel + 1, first, r => do
    if let .flowMappingEnd :: _ := r.tokens then return ([], r.advance)
    let r ← r.afterComma first
    match r.tokens with
    | .flowMappingEnd :: _ => return ([], r.advance)
    | .key :: _ =>
      let r := r.advance
      let (key, r) ← if r.endsFlowKey then some (emptyNode, r) else node false false fuel r
      let (value, r) ← flowValue fuel r
      let (entries, r) ← flowEntries fuel false r
      return ((key, value) :: entries, r)
    | _ =>
      let (key, r) ← node false false fuel r
      let (entries, r) ← flowEntries fuel false r
      return ((key, emptyNode) :: entries, r)

/-- Read the value of a pair in brackets. -/
def flowValue : Nat → NodeReader → Option (Node × NodeReader)
  | 0, _ => none
  | fuel + 1, r =>
    match r.tokens with
    | .value :: _ =>
      let r := r.advance
      if r.endsFlowValue then some (emptyNode, r) else node false false fuel r
    | _ => some (emptyNode, r)

end

/-- Read the directives before a document: whether the version was given, and what the handles
stand for. -/
def directives (version : Bool) (handles : List (String × String)) :
    List Token → Option (List (String × String) × List Token)
  | .directive (.version major) :: rest =>
    if version ∨ major ≠ 1 then none else directives true handles rest
  | .directive (.shorthand handle start) :: rest =>
    if (handles.lookup handle).isSome then none
    else directives version (handles ++ [(handle, start)]) rest
  | .directive .other :: rest => directives version handles rest
  | rest => some (handles, rest)

/-- Whether the first token is one at which a document is empty. -/
def endsDocument (r : NodeReader) : Bool :=
  match r.tokens with
  | [] | .directive _ :: _ | .documentStart :: _ | .documentEnd :: _ => true
  | _ => false

/-- Read the only document that starts with a mark. -/
def markedDocument (fuel : Nat) (tokens : List Token) : Option (Node × List Token) := do
  match ← directives false [] tokens with
  | (handles, .documentStart :: rest) =>
    let r : NodeReader := { tokens := rest, handles := handles ++ defaultHandles }
    if r.endsDocument then return (emptyNode, rest)
    let (node, r) ← node true false fuel r
    return (node, r.tokens)
  | _ => none

/-- Read the document of a text: none if the text has no tokens, and no more than one. -/
def document? (tokens : List Token) : Option (Option Node) := do
  let fuel := 4 * tokens.length + 8
  let isMark : Token → Bool
    | .documentEnd => true
    | _ => false
  match tokens with
  | [] => return none
  | .directive _ :: _ | .documentStart :: _ =>
    let (node, rest) ← markedDocument fuel tokens
    if (rest.dropWhile isMark).isEmpty then return some node else none
  | _ =>
    let (node, r) ← node true false fuel { tokens, handles := defaultHandles }
    if (r.tokens.dropWhile isMark).isEmpty then return some node else none

end NodeReader

/-- The node of the document of a text, if it has one. -/
def node? (tokens : List Token) : Option (Option Node) := NodeReader.document? tokens

end PolicyAuthoring.Yaml
