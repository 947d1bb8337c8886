import PolicyAuthoring.Text.Digit

/-!
# YAML tokens

The tokens of a YAML text, and the readers of single tokens. A reader gets the characters from the
start of its token on and gives what it read with the characters that follow. Line breaks have been
made line feeds before, so a line ends in a line feed, a next-line character or one of the two
Unicode separators; all but the separators read as a line feed.
-/

namespace PolicyAuthoring.Yaml

/-- A directive before a document. -/
inductive Directive where
  /-- The version of YAML. -/
  | version (major : Nat)
  /-- A shorthand for the start of tag names. -/
  | shorthand (handle start : String)
  /-- A directive that is passed over. -/
  | other

/-- The tokens of a YAML text. -/
inductive Token where
  | directive (d : Directive)
  | documentStart | documentEnd
  | blockSequenceStart | blockMappingStart | blockEnd | blockEntry
  | flowSequenceStart | flowSequenceEnd | flowMappingStart | flowMappingEnd | flowEntry
  | key | value
  | alias (name : String)
  | anchor (name : String)
  | tag (handle : Option String) (suffix : String)
  /-- A scalar, given by its code points; whether it stands without quotes matters to what it is
  read as. -/
  | scalar (plain : Bool) (codes : List Nat)

/-! ## Characters -/

/-- Whether a character ends a line. -/
def isBreak (c : Char) : Bool := c = '\n' || c = '\u0085' || c = '\u2028' || c = '\u2029'

/-- The character that a line end reads as. -/
def breakChar (c : Char) : Char := if c = '\u0085' then '\n' else c

/-- Whether a character ends a line or separates tokens. -/
def isGap (c : Char) : Bool := c = ' ' || c = '\t' || isBreak c

/-- Whether a gap or the end of the text is at the front. -/
def atGap : List Char → Bool
  | [] => true
  | c :: _ => isGap c

/-- Whether a line ends at the front. -/
def atLineEnd : List Char → Bool
  | [] => true
  | c :: _ => isBreak c

/-- Whether the mark of a document boundary is at the front. -/
def atBoundary : List Char → Bool
  | '-' :: '-' :: '-' :: rest => atGap rest
  | '.' :: '.' :: '.' :: rest => atGap rest
  | _ => false

/-- Whether a character can stand in the name of an anchor. -/
def isNameChar (c : Char) : Bool := c.isAlphanum || c = '-' || c = '_'

/-- Whether a character can stand in a tag. -/
def isTagChar (c : Char) : Bool :=
  c.isAlphanum || "-;/?:@&=+$,_.!~*'()[]%".toList.contains c

/-! ## Names and tags -/

/-- The name of an anchor or alias. -/
def readName (cs : List Char) : Option (String × List Char) :=
  let name := cs.takeWhile isNameChar
  let rest := cs.dropWhile isNameChar
  let follows := match rest with
    | [] => true
    | c :: _ => isGap c || "?:,]\x7d%@\x60".toList.contains c
  if !name.isEmpty && follows then some (String.ofList name, rest) else none

/-- The value of a hexadecimal digit. -/
def hexDigit? (c : Char) : Option Nat :=
  if c.isDigit then some (c.toNat - 48)
  else if 'a' ≤ c ∧ c ≤ 'f' then some (c.toNat - 87)
  else if 'A' ≤ c ∧ c ≤ 'F' then some (c.toNat - 55)
  else none

/-- The characters of a tag, in which a percent sign and two digits stand for a character. -/
def tagChars : List Char → Option (List Char × List Char)
  | [] => some ([], [])
  | '%' :: a :: b :: rest => do
    let code := (← hexDigit? a) * 16 + (← hexDigit? b)
    let (cs, rest) ← tagChars rest
    return (Char.ofNat code :: cs, rest)
  | c :: rest =>
    if c = '%' then none
    else if isTagChar c then do
      let (cs, rest) ← tagChars rest
      return (c :: cs, rest)
    else some ([], c :: rest)

/-- The characters of a tag, of which there must be one. -/
def tagSuffix (cs : List Char) : Option (String × List Char) := do
  let (suffix, rest) ← tagChars cs
  if suffix = [] then none else return (String.ofList suffix, rest)

/-- The handle of a tag: an exclamation mark, or a name between two. -/
def tagHandle (cs : List Char) : Option (String × List Char) :=
  match cs with
  | '!' :: rest =>
    let name := rest.takeWhile isNameChar
    match name, rest.dropWhile isNameChar with
    | _, '!' :: rest => some (String.ofList ('!' :: name ++ ['!']), rest)
    | [], ' ' :: rest => some ("!", ' ' :: rest)
    | _, _ => none
  | _ => none

/-- Whether a tag that starts here has a handle with two exclamation marks. -/
def hasHandle : List Char → Bool
  | [] => false
  | c :: rest => if c = '!' then true else if c = ' ' || isBreak c then false else hasHandle rest

/-- What follows a tag must be a gap other than a tab. -/
def tagEnd (token : Token) (cs : List Char) : Option (Token × List Char) :=
  match cs with
  | '\t' :: _ => none
  | _ => if atGap cs then some (token, cs) else none

/-- A tag, after its first exclamation mark. -/
def readTag (cs : List Char) : Option (Token × List Char) :=
  match cs with
  | '<' :: rest => do
    let (suffix, rest) ← tagSuffix rest
    match rest with
    | '>' :: rest => tagEnd (.tag none suffix) rest
    | _ => none
  | _ =>
    if atGap cs then tagEnd (.tag none "!") cs
    else if hasHandle cs then do
      let (handle, rest) ← tagHandle ('!' :: cs)
      let (suffix, rest) ← tagSuffix rest
      tagEnd (.tag (some handle) suffix) rest
    else do
      let (suffix, rest) ← tagSuffix cs
      tagEnd (.tag (some "!") suffix) rest

/-! ## Directives -/

/-- What follows blanks and a comment on a line, up to its end. -/
def restOfLine (cs : List Char) : Option (List Char) :=
  let rest := cs.dropWhile (· = ' ')
  let rest := match rest with
    | '#' :: _ => rest.dropWhile fun c => !isBreak c
    | _ => rest
  if atLineEnd rest then some (rest.drop 1) else none

/-- The version that a directive gives. -/
def readVersion (cs : List Char) : Option (Directive × List Char) :=
  let cs := cs.dropWhile (· = ' ')
  let major := cs.takeWhile Char.isDigit
  match cs.dropWhile Char.isDigit with
  | '.' :: rest =>
    let minor := rest.takeWhile Char.isDigit
    if major ≠ [] ∧ minor ≠ [] then
      some (.version (Text.ofDigits 10 (major.map fun c => c.toNat - 48)),
        rest.dropWhile Char.isDigit)
    else none
  | _ => none

/-- The shorthand that a directive introduces. -/
def readShorthand (cs : List Char) : Option (Directive × List Char) := do
  let (handle, rest) ← tagHandle (cs.dropWhile (· = ' '))
  match rest with
  | ' ' :: rest =>
    let (start, rest) ← tagSuffix (rest.dropWhile (· = ' '))
    return (.shorthand handle start, rest)
  | _ => none

/-- A directive, after its percent sign. -/
def readDirective (cs : List Char) : Option (Token × List Char) := do
  let name := cs.takeWhile isNameChar
  let rest := cs.dropWhile isNameChar
  let ended (rest : List Char) : Bool := atLineEnd rest || rest.head? = some ' '
  if name = [] ∨ !ended rest then none
  else
    let (directive, rest) ←
      if name = "YAML".toList then readVersion rest
      else if name = "TAG".toList then readShorthand rest
      else some (.other, rest.dropWhile fun c => !isBreak c)
    if ended rest then return (.directive directive, ← restOfLine rest) else none

/-! ## Quoted scalars -/

/-- What line breaks inside a quoted or plain scalar read as: a single one is a space, and of more
the first is dropped. The first break is given apart. -/
def foldedBreaks (first : Char) (others : List Char) : List Char :=
  if breakChar first ≠ '\n' then first :: others
  else if others = [] then [' '] else others

/-- The line breaks at the front, blanks among them left out. A document boundary at the start of a
line ends everything. -/
def quotedBreaks (lineStart : Bool) : List Char → Option (List Char × List Char)
  | [] => some ([], [])
  | c :: rest =>
    if lineStart && atBoundary (c :: rest) then none
    else if c = ' ' ∨ c = '\t' then quotedBreaks false rest
    else if isBreak c then do
      let (breaks, rest) ← quotedBreaks true rest
      return (breakChar c :: breaks, rest)
    else some ([], c :: rest)

/-- The code of an escape of one letter. -/
def letterEscape? : Char → Option Nat
  | '0' => some 0
  | 'a' => some 7
  | 'b' => some 8
  | 't' => some 9
  | '\t' => some 9
  | 'n' => some 10
  | 'v' => some 11
  | 'f' => some 12
  | 'r' => some 13
  | 'e' => some 27
  | ' ' => some 32
  | '"' => some 34
  | '\\' => some 92
  | '/' => some 47
  | 'N' => some 0x85
  | '_' => some 0xA0
  | 'L' => some 0x2028
  | 'P' => some 0x2029
  | _ => none

/-- The number of digits of an escape that gives the code in hexadecimal. -/
def escapeWidth? : Char → Option Nat
  | 'x' => some 2
  | 'u' => some 4
  | 'U' => some 8
  | _ => none

/-- The code that hexadecimal digits at the front give. -/
def hexCode (width : Nat) (cs : List Char) : Option (Nat × List Char) := do
  let digits := cs.take width
  let code := Text.ofDigits 16 (← digits.mapM hexDigit?)
  if digits.length = width ∧ code < 0x110000 then return (code, cs.drop width) else none

/-- An escape after its backslash: the codes it gives, and what follows. -/
def readEscape (cs : List Char) : Option (List Nat × List Char) :=
  match cs with
  | [] => none
  | c :: rest =>
    match letterEscape? c, escapeWidth? c with
    | some code, _ => some ([code], rest)
    | none, some width => (hexCode width rest).map fun (code, rest) => ([code], rest)
    | none, none =>
      if isBreak c then
        (quotedBreaks true rest).map fun (breaks, rest) => (breaks.map Char.toNat, rest)
      else none

/-- Blanks and line breaks inside a quoted scalar. -/
def quotedGap (cs : List Char) : Option (List Char × List Char) :=
  let isBlank (c : Char) : Bool := c = ' ' || c = '\t'
  match cs.dropWhile isBlank with
  | [] => none
  | c :: rest =>
    if isBreak c then do
      let (breaks, rest) ← quotedBreaks true rest
      return (foldedBreaks c breaks, rest)
    else some (cs.takeWhile isBlank, c :: rest)

/-- A scalar in quotes, after its opening quote. Every piece takes at least one character, and one
unit of fuel. -/
def quotedPieces (double : Bool) : Nat → List Char → Option (List Nat × List Char)
  | 0, _ => none
  | _, [] => none
  | fuel + 1, c :: rest => do
    let andThen (codes : List Nat) (rest : List Char) : Option (List Nat × List Char) := do
      let (more, rest) ← quotedPieces double fuel rest
      return (codes ++ more, rest)
    if isGap c then
      let (gap, rest) ← quotedGap (c :: rest)
      andThen (gap.map Char.toNat) rest
    else if double then
      if c = '"' then return ([], rest)
      else if c = '\\' then
        let (codes, rest) ← readEscape rest
        andThen codes rest
      else andThen [c.toNat] rest
    else if c = '\'' then
      match rest with
      | '\'' :: rest => andThen [39] rest
      | _ => return ([], rest)
    else andThen [c.toNat] rest

/-- A scalar in quotes, after its opening quote. -/
def readQuoted (double : Bool) (cs : List Char) : Option (Token × List Char) := do
  let (codes, rest) ← quotedPieces double (cs.length + 1) cs
  return (.scalar false codes, rest)

/-! ## Plain scalars -/

/-- The part of a plain scalar up to the next gap, and what follows it. In flow context brackets,
commas and question marks end it too. -/
def plainWord (flow : Bool) : List Char → List Char × List Char
  | [] => ([], [])
  | c :: rest =>
    let colonEnds := match rest with
      | [] => true
      | d :: _ => isGap d || (flow && ",[]\x7b\x7d".toList.contains d)
    if isGap c || (c = ':' && colonEnds) || (flow && ",?[]\x7b\x7d".toList.contains c) then
      ([], c :: rest)
    else
      let (word, rest) := plainWord flow rest
      (c :: word, rest)

/-- Line breaks and spaces at the front after a first line break: the breaks, whether a document
boundary was met, and what follows. -/
def plainBreaks : List Char → List Char × Bool × List Char
  | [] => ([], false, [])
  | c :: rest =>
    if c = ' ' then plainBreaks rest
    else if isBreak c then
      if atBoundary rest then ([breakChar c], true, rest)
      else
        let (breaks, met, rest) := plainBreaks rest
        (breakChar c :: breaks, met, rest)
    else ([], false, c :: rest)

/-- The gap after a part of a plain scalar, whether it ended a line, and what follows. No
characters mean that the scalar has ended. -/
def plainGap (cs : List Char) : List Char × Bool × List Char :=
  let spaces := cs.takeWhile (· = ' ')
  match cs.dropWhile (· = ' ') with
  | [] => (spaces, false, [])
  | c :: rest =>
    if isBreak c then
      if atBoundary rest then ([], true, rest)
      else
        let (breaks, met, rest) := plainBreaks rest
        (if met then [] else foldedBreaks c breaks, true, rest)
    else (spaces, false, c :: rest)

/-! ## Block scalars -/

/-- What becomes of the line breaks at the end of a block scalar. -/
inductive Chomping where
  /-- One is kept. -/
  | clip
  /-- None is kept. -/
  | strip
  /-- All are kept. -/
  | keep
  deriving DecidableEq

/-- The chomping that a mark asks for. -/
def chomping? : Char → Option Chomping
  | '+' => some .keep
  | '-' => some .strip
  | _ => none

/-- The indentation that a mark asks for. -/
def increment? (c : Char) : Option Nat :=
  if '1' ≤ c ∧ c ≤ '9' then some (c.toNat - 48) else none

/-- The marks of a block scalar, in either order, and what follows them. -/
def blockMarks (cs : List Char) : Chomping × Option Nat × List Char :=
  match cs with
  | a :: b :: rest =>
    match chomping? a, increment? b, increment? a, chomping? b with
    | some chomping, some n, _, _ => (chomping, some n, rest)
    | some chomping, none, _, _ => (chomping, none, b :: rest)
    | none, _, some n, some chomping => (chomping, some n, rest)
    | none, _, some n, none => (.clip, some n, b :: rest)
    | none, _, none, _ => (.clip, none, cs)
  | [a] =>
    match chomping? a, increment? a with
    | some chomping, _ => (chomping, none, [])
    | none, some n => (.clip, some n, [])
    | none, none => (.clip, none, cs)
  | [] => (.clip, none, [])

/-- The header of a block scalar up to the end of its line. -/
def blockHeader (cs : List Char) : Option (Chomping × Option Nat × List Char) := do
  let (chomping, increment, rest) := blockMarks cs
  if atLineEnd rest ∨ rest.head? = some ' ' then
    return (chomping, increment, ← restOfLine rest)
  else none

/-- The line breaks and spaces at the front: the breaks, the greatest column that spaces reach, the
column at the end, and what follows. -/
def blockIndentation (column widest : Nat) : List Char → List Char × Nat × Nat × List Char
  | [] => ([], widest, column, [])
  | c :: rest =>
    if c = ' ' then blockIndentation (column + 1) (max widest (column + 1)) rest
    else if isBreak c then
      let (breaks, widest, column, rest) := blockIndentation 0 widest rest
      (breakChar c :: breaks, widest, column, rest)
    else ([], widest, column, c :: rest)

/-- The line breaks at the front, with at most `indent` spaces before each: the breaks, the column
at the end, and what follows. -/
def blockBreaks (indent column : Nat) : List Char → List Char × Nat × List Char
  | [] => ([], column, [])
  | c :: rest =>
    if c = ' ' ∧ column < indent then blockBreaks indent (column + 1) rest
    else if isBreak c then
      let (breaks, column, rest) := blockBreaks indent 0 rest
      (breakChar c :: breaks, column, rest)
    else ([], column, c :: rest)

/-- Whether a blank is at the front. -/
def atBlank : List Char → Bool
  | c :: _ => c = ' ' || c = '\t'
  | [] => false

/-- The lines of a block scalar from a line that has the indentation of the scalar: its characters
up to the last line break, that break, the breaks after it, and what follows. -/
def blockLines (folded : Bool) (indent : Nat) :
    Nat → List Char → List Char × List Char × List Char × List Char
  | 0, cs => ([], [], [], cs)
  | fuel + 1, cs =>
    let line := cs.takeWhile fun c => !isBreak c
    match cs.dropWhile fun c => !isBreak c with
    | [] => (line, [], [], [])
    | c :: rest =>
      let (breaks, column, rest) := blockBreaks indent 0 rest
      if column = indent ∧ rest ≠ [] then
        let joint :=
          if folded && breakChar c = '\n' && !atBlank cs && !atBlank rest then
            (if breaks = [] then [' '] else [])
          else [breakChar c]
        let (more, last, after, rest) := blockLines folded indent fuel rest
        (line ++ joint ++ breaks ++ more, last, after, rest)
      else (line, [breakChar c], breaks, rest)

/-- A block scalar after its mark, inside a block of the given indentation. -/
def readBlock (folded : Bool) (parent : Int) (cs : List Char) : Option (Token × List Char) := do
  let (chomping, increment, rest) ← blockHeader cs
  let least := (max (parent + 1) 1).toNat
  let (breaks, indent, column, rest) := match increment with
    | none =>
      let (breaks, widest, column, rest) := blockIndentation 0 0 rest
      (breaks, max least widest, column, rest)
    | some n =>
      let indent := least + n - 1
      let (breaks, column, rest) := blockBreaks indent 0 rest
      (breaks, indent, column, rest)
  let (body, last, after, rest) :=
    if column = indent ∧ rest ≠ [] then
      let (body, last, after, rest) := blockLines folded indent (rest.length + 1) rest
      (breaks ++ body, last, after, rest)
    else ([], [], breaks, rest)
  let ending := match chomping with
    | .strip => []
    | .clip => last
    | .keep => last ++ after
  return (.scalar false ((body ++ ending).map Char.toNat), rest)

end PolicyAuthoring.Yaml
