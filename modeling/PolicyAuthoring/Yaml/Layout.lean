import PolicyAuthoring.Yaml.Token

/-!
# YAML layout

The tokens of a whole text. Blocks are marked by indentation alone, and a key is recognised only by
the colon after it, so the tokens that open and close blocks and mark keys have no characters of
their own. While tokens are read, `Layout` remembers the indentations that are open and, for each
level of brackets, the place at which a key may have begun. A key has to end on the line on which
it begins, within `maxKeyLength` characters.
-/

namespace PolicyAuthoring.Yaml

/-- A place in a text and what follows it. -/
structure Cursor where
  /-- The characters that follow. -/
  rest : List Char
  /-- The number of characters before. -/
  index : Nat := 0
  /-- The number of line ends before. -/
  line : Nat := 0
  /-- The number of characters before on the same line. -/
  column : Nat := 0

namespace Cursor

/-- Move over some characters. -/
def advance : Nat → Cursor → Cursor
  | 0, c => c
  | n + 1, c =>
    match c.rest with
    | [] => c
    | ch :: rest =>
      if isBreak ch then advance n ⟨rest, c.index + 1, c.line + 1, 0⟩
      else if ch = '\uFEFF' then advance n ⟨rest, c.index + 1, c.line, c.column⟩
      else advance n ⟨rest, c.index + 1, c.line, c.column + 1⟩

/-- Move to the place that `rest` follows. -/
def moveTo (c : Cursor) (rest : List Char) : Cursor :=
  c.advance (c.rest.length - rest.length)

end Cursor

/-- The greatest distance between the beginning of a key and the colon after it. -/
def maxKeyLength : Nat := 1024

/-- A place at which a key may have begun. -/
structure KeyMark where
  /-- The number of tokens before it. -/
  before : Nat
  /-- Whether a key has to begin there, because nothing else can. -/
  required : Bool
  /-- The place in the text. -/
  index : Nat
  /-- The line. -/
  line : Nat
  /-- The column. -/
  column : Nat

/-- Whether a key that began at a mark can no longer end here. -/
def KeyMark.expired (mark : KeyMark) (c : Cursor) : Bool :=
  mark.line ≠ c.line || maxKeyLength < c.index - mark.index

/-- What is known while tokens are read. -/
structure Layout where
  /-- The place in the text. -/
  cursor : Cursor
  /-- The tokens so far, the last one first. -/
  tokens : List Token := []
  /-- The number of tokens so far. -/
  count : Nat := 0
  /-- The indentation of the innermost block. -/
  indent : Int := -1
  /-- The indentations of the blocks around it, the innermost first. -/
  outerIndents : List Int := []
  /-- Whether a key may begin here. -/
  allowKey : Bool := true
  /-- Where a key may have begun inside the innermost brackets. -/
  mark : Option KeyMark := none
  /-- Where keys may have begun outside of each pair of open brackets, the innermost first. -/
  outerMarks : List (Option KeyMark) := []

namespace Layout

/-- Whether brackets are open. -/
def inFlow (l : Layout) : Bool := !l.outerMarks.isEmpty

/-- Add a token at the end. -/
def push (l : Layout) (token : Token) : Layout :=
  { l with tokens := token :: l.tokens, count := l.count + 1 }

/-- Insert tokens after the first `before` ones; the tokens are given in order. -/
def insertAt (l : Layout) (before : Nat) (tokens : List Token) : Layout :=
  let later := l.count - before
  { l with
    tokens := l.tokens.take later ++ tokens.reverse ++ l.tokens.drop later
    count := l.count + tokens.length }

/-- Move to the place that `rest` follows. -/
def moveTo (l : Layout) (rest : List Char) : Layout := { l with cursor := l.cursor.moveTo rest }

/-- Forget the key that may have begun inside the innermost brackets, unless one has to. -/
def forgetMark (l : Layout) : Option Layout :=
  match l.mark with
  | some mark => if mark.required then none else some { l with mark := none }
  | none => some l

/-- Remember that a key may begin here, if one may. -/
def saveMark (l : Layout) : Option Layout :=
  if l.allowKey then do
    let l ← l.forgetMark
    let c := l.cursor
    -- At the indentation of a block nothing but a key of that block can begin.
    return { l with mark := some {
      before := l.count
      required := !l.inFlow && l.indent = c.column
      index := c.index
      line := c.line
      column := c.column } }
  else some l

/-- A mark that has not expired. An expired mark is dropped, unless a key has to begin there. -/
def liveMark (c : Cursor) : Option KeyMark → Option (Option KeyMark)
  | some mark =>
    if mark.expired c then (if mark.required then none else some none) else some (some mark)
  | none => some none

/-- Drop the marks that have expired. -/
def dropExpired (l : Layout) : Option Layout := do
  return { l with
    mark := ← liveMark l.cursor l.mark
    outerMarks := ← l.outerMarks.mapM (liveMark l.cursor) }

/-- The blocks that are left when those indented deeper than a column are closed: the indentation
of the innermost, those around it, and the number of blocks that were closed. -/
def openBlocks (column : Int) (indent : Int) : List Int → Int × List Int × Nat
  | [] => (indent, [], 0)
  | outer :: rest =>
    if column < indent then
      let (indent, outerIndents, closed) := openBlocks column outer rest
      (indent, outerIndents, closed + 1)
    else (indent, outer :: rest, 0)

/-- Close the blocks that are indented deeper than a column. -/
def unwind (l : Layout) (column : Int) : Layout :=
  if l.inFlow then l
  else
    let (indent, outerIndents, closed) := openBlocks column l.indent l.outerIndents
    { l with
      indent, outerIndents
      tokens := List.replicate closed .blockEnd ++ l.tokens
      count := l.count + closed }

/-- Open a block at a column if it is deeper than the innermost one; whether it was. -/
def indentTo (l : Layout) (column : Nat) : Bool × Layout :=
  if l.indent < column then
    (true, { l with indent := column, outerIndents := l.indent :: l.outerIndents })
  else (false, l)

/-- Outside of brackets, open a block here if there is none at this column. It has to be a place
at which a key may begin. -/
def openHere (l : Layout) (start : Token) : Option Layout :=
  if l.inFlow then some l
  else if l.allowKey then
    match l.indentTo l.cursor.column with
    | (true, l) => some (l.push start)
    | (false, l) => some l
  else none

/-- Read spaces, comments and line ends: whether a line was ended, and what follows. -/
def gap (comment : Bool) : List Char → Bool × List Char
  | [] => (false, [])
  | c :: rest =>
    if isBreak c then (true, (gap false rest).2)
    else if comment ∨ c = '#' then gap true rest
    else if c = ' ' then gap false rest
    else (false, c :: rest)

/-- The parts of a plain scalar: its characters, whether a line was ended after the last part, and
the place after it. Outside of brackets a part has to stand at column `least` or later. -/
def plainParts (flow : Bool) (least : Int) :
    Nat → List Char → Bool → Cursor → List Char × Bool × Cursor
  | 0, _, broke, c => ([], broke, c)
  | fuel + 1, pending, broke, c =>
    if c.rest.head? = some '#' then ([], broke, c)
    else
      match plainWord flow c.rest with
      | ([], _) => ([], broke, c)
      | (word, rest) =>
        let c := c.moveTo rest
        let (between, broke, rest) := plainGap rest
        let c := c.moveTo rest
        -- The gap after the last part does not belong to the scalar.
        if between = [] ∨ c.rest.head? = some '#' ∨ (!flow ∧ (c.column : Int) < least) then
          (pending ++ word, broke, c)
        else
          let (more, broke, c) := plainParts flow least fuel between broke c
          (pending ++ word ++ more, broke, c)

/-- Read a token that may begin a key. -/
def readKeyed (l : Layout) (read : Option (Token × List Char)) : Option Layout := do
  let l ← l.saveMark
  let (token, rest) ← read
  return ({ l with allowKey := false }.push token).moveTo rest

/-- Read a plain scalar. -/
def readPlain (l : Layout) : Option Layout := do
  let l ← l.saveMark
  let (cs, broke, cursor) :=
    plainParts l.inFlow (l.indent + 1) (l.cursor.rest.length + 1) [] false l.cursor
  return { l with cursor, allowKey := broke }.push (.scalar true (cs.map Char.toNat))

/-- Read a block scalar after its mark. -/
def readBlockScalar (l : Layout) (folded : Bool) (rest : List Char) : Option Layout := do
  let l ← { l with allowKey := true }.forgetMark
  let (token, rest) ← readBlock folded l.indent rest
  return (l.push token).moveTo rest

/-- Read a mark between documents, or a directive. -/
def readBoundary (l : Layout) (token : Token) (rest : List Char) : Option Layout := do
  let l ← (l.unwind (-1)).forgetMark
  return ({ l with allowKey := false }.push token).moveTo rest

/-- Read an opening bracket. -/
def openBracket (l : Layout) (token : Token) (rest : List Char) : Option Layout := do
  let l ← l.saveMark
  let l := { l with mark := none, outerMarks := l.mark :: l.outerMarks, allowKey := true }
  return (l.push token).moveTo rest

/-- Read a closing bracket. -/
def closeBracket (l : Layout) (token : Token) (rest : List Char) : Option Layout := do
  let l ← l.forgetMark
  match l.outerMarks with
  | [] => none
  | mark :: outerMarks =>
    return ({ l with mark, outerMarks, allowKey := false }.push token).moveTo rest

/-- Read a comma. -/
def readComma (l : Layout) (rest : List Char) : Option Layout := do
  let l ← l.forgetMark
  return ({ l with allowKey := true }.push .flowEntry).moveTo rest

/-- Read the dash of a sequence entry. -/
def readDash (l : Layout) (rest : List Char) : Option Layout := do
  let l ← (← l.openHere .blockSequenceStart).forgetMark
  return ({ l with allowKey := true }.push .blockEntry).moveTo rest

/-- Read the question mark of a key. -/
def readQuestion (l : Layout) (rest : List Char) : Option Layout := do
  let l ← (← l.openHere .blockMappingStart).forgetMark
  return ({ l with allowKey := !l.inFlow }.push .key).moveTo rest

/-- Read the colon of a value. If a key may have begun earlier, it has. -/
def readColon (l : Layout) (rest : List Char) : Option Layout :=
  match l.mark with
  | some mark =>
    let l := { l with mark := none, allowKey := false }
    -- The tokens before the key are known only now, and go in where it began.
    let l :=
      if l.inFlow then l.insertAt mark.before [.key]
      else
        match l.indentTo mark.column with
        | (true, l) => l.insertAt mark.before [.blockMappingStart, .key]
        | (false, l) => l.insertAt mark.before [.key]
    some ((l.push .value).moveTo rest)
  | none => do
    let l ← l.openHere .blockMappingStart
    return ({ l with allowKey := !l.inFlow }.push .value).moveTo rest

/-- Whether a plain scalar can begin with a character, given what follows it. -/
def beginsPlain (flow : Bool) (c : Char) (rest : List Char) : Bool :=
  !(isGap c || "-?:,[]\x7b\x7d#&*!|>'\"%@\x60".toList.contains c) ||
    (!atGap rest && (c = '-' || (!flow && (c = '?' || c = ':'))))

/-- Read the token that begins with a character. -/
def readToken (l : Layout) (c : Char) (rest : List Char) : Option Layout :=
  let atStart := l.cursor.column = 0
  if c = '%' ∧ atStart then do
    let (token, rest) ← readDirective rest
    l.readBoundary token rest
  else if atStart ∧ atBoundary (c :: rest) then
    l.readBoundary (if c = '-' then .documentStart else .documentEnd) (rest.drop 2)
  else if c = '[' then l.openBracket .flowSequenceStart rest
  else if c = '\x7b' then l.openBracket .flowMappingStart rest
  else if c = ']' then l.closeBracket .flowSequenceEnd rest
  else if c = '\x7d' then l.closeBracket .flowMappingEnd rest
  else if c = ',' then l.readComma rest
  else if c = '-' ∧ atGap rest then l.readDash rest
  else if c = '?' ∧ (l.inFlow || atGap rest) then l.readQuestion rest
  else if c = ':' ∧ (l.inFlow || atGap rest) then l.readColon rest
  else if c = '*' then
    l.readKeyed ((readName rest).map fun (name, rest) => (.alias name, rest))
  else if c = '&' then
    l.readKeyed ((readName rest).map fun (name, rest) => (.anchor name, rest))
  else if c = '!' then l.readKeyed (readTag rest)
  else if c = '|' ∧ !l.inFlow then l.readBlockScalar false rest
  else if c = '>' ∧ !l.inFlow then l.readBlockScalar true rest
  else if c = '\'' then l.readKeyed (readQuoted false rest)
  else if c = '"' then l.readKeyed (readQuoted true rest)
  else if beginsPlain l.inFlow c rest then l.readPlain
  else none

/-- Read what stands before the next token. -/
def skipGap (l : Layout) : Option Layout := do
  let (broke, rest) := gap false l.cursor.rest
  let l := l.moveTo rest
  let l ← { l with allowKey := l.allowKey || (broke && !l.inFlow) }.dropExpired
  return l.unwind l.cursor.column

/-- Read tokens up to the end of the text. Every token takes at least one character, and one unit
of fuel. -/
def run : Nat → Layout → Option (List Token)
  | 0, _ => none
  | fuel + 1, l => do
    let l ← l.skipGap
    match l.cursor.rest with
    | [] => return (← (l.unwind (-1)).forgetMark).tokens.reverse
    | c :: rest => run fuel (← l.readToken c rest)

end Layout

/-- The tokens of a text. A byte order mark at its start is passed over. -/
def tokens? (cs : List Char) : Option (List Token) :=
  let cs := match cs with
    | '\uFEFF' :: rest => rest
    | _ => cs
  Layout.run (cs.length + 1) { cursor := { rest := cs } }

end PolicyAuthoring.Yaml
