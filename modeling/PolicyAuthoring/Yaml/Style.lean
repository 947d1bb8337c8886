import PolicyAuthoring.Yaml.Scalar
import PolicyAuthoring.Yaml.Token

/-!
# Styles of YAML scalars

A text can be written plain, between single quotes or between double quotes. It is plain when it
would be read back as the same text, and in single quotes when only its form or its line feeds
forbid that. Double quotes are for what needs escapes: characters outside printable ASCII, and
spaces next to a line feed. Lines that have grown beyond `lineWidth` are folded at spaces.
-/

namespace PolicyAuthoring.Yaml

/-- How a scalar is marked off. -/
inductive Style where
  /-- Not at all. -/
  | plain
  /-- By single quotes. -/
  | single
  /-- By double quotes, with escapes. -/
  | double
  deriving DecidableEq

/-! ## The choice of a style -/

/-- Whether a code point can be written without an escape, other than as a mark. -/
def isBare (code : Nat) : Bool := code = 10 || (32 ≤ code && code ≤ 126)

/-- The characters with which no plain text begins. -/
def openingMarks : List Char :=
  ['#', ',', '[', ']', '\x7b', '\x7d', '&', '*', '!', '|', '>', '\'', '"', '%', '@', '\x60']

/-- Whether a text begins like something else than a plain text. -/
def opensMark : List Char → Bool
  | c :: rest =>
    openingMarks.contains c || ((c = '?' || c = '-') && atGap rest) ||
      ['-', '-', '-'].isPrefixOf (c :: rest) || ['.', '.', '.'].isPrefixOf (c :: rest)
  | [] => false

/-- Whether a key would end or a comment begin in a text. `afterGap` tells whether the text before
ends in a gap. -/
def holdsMark (afterGap : Bool) : List Char → Bool
  | c :: rest =>
    (c = ':' && atGap rest) || (c = '#' && afterGap) || holdsMark (isGap c) rest
  | [] => false

/-- Whether a space stands next to a line feed. -/
def spaceMeetsLine : List Char → Bool
  | c :: d :: rest => (isGap c && isGap d && c ≠ d) || spaceMeetsLine (d :: rest)
  | _ => false

/-- Whether a text is read back as the same text when it is written plain. -/
def isPlain (cs : List Char) : Bool :=
  plainTag cs = .text && !opensMark cs && !holdsMark false cs && !cs.contains '\n' &&
    cs.head? ≠ some ' ' && cs.getLast? ≠ some ' '

/-- The style of the text with these code points. -/
def Style.ofCodes (codes : List Nat) : Style :=
  let cs := codes.map Char.ofNat
  if !codes.all isBare || spaceMeetsLine cs then .double
  else if isPlain cs then .plain
  else .single

/-! ## Scalars in lines -/

/-- The column beyond which a line is folded. -/
def lineWidth : Nat := 80

/-- A line end and the indentation of the next line. -/
def newLine (indent : Nat) : List Char := '\n' :: List.replicate indent ' '

/-- Where and whether a scalar can be broken into lines. -/
structure Margins where
  /-- The indentation of the lines after the first. -/
  indent : Nat
  /-- Whether long lines are folded. -/
  folds : Bool

/-- Whether a line of this length is folded. -/
def Margins.isFull (m : Margins) (column : Nat) : Bool := m.folds && lineWidth < column

/-- A plain or a single-quoted text from `column` on, after the character `last`. A line feed is
written as an empty line; a single space between other characters is where a full line is folded. In
quotes, a quote is written twice. -/
def folded (m : Margins) (quoted : Bool) (column : Nat) (last : Char) : List Char → List Char
  | [] => []
  | c :: rest =>
    if c = ' ' then
      -- A fold reads back as one space, so only a space that stands alone can be folded.
      if m.isFull column ∧ last ≠ ' ' ∧ rest ≠ [] ∧ rest.head? ≠ some ' ' then
        newLine m.indent ++ folded m quoted m.indent c rest
      else c :: folded m quoted (column + 1) c rest
    else if c = '\n' then
      -- A single line end would read back as a space, so a run of line feeds takes one more.
      (if last = '\n' then [] else ['\n']) ++
        newLine (if rest.head? = some '\n' then 0 else m.indent) ++
        folded m quoted m.indent c rest
    else if quoted ∧ c = '\'' then c :: c :: folded m quoted (column + 2) c rest
    else c :: folded m quoted (column + 1) c rest

/-- The escapes that are one letter. -/
def letterEscapes : List (Nat × Char) :=
  [(0, '0'), (7, 'a'), (8, 'b'), (9, 't'), (10, 'n'), (11, 'v'), (12, 'f'), (13, 'r'), (27, 'e'),
    (34, '"'), (92, '\\'), (0x85, 'N'), (0xA0, '_'), (0x2028, 'L'), (0x2029, 'P')]

/-- The hexadecimal digits of an escape, in upper case. -/
def escapeDigits (width code : Nat) : List Char := (Text.hexDigits width code).map Char.toUpper

/-- The escape for a code point, if it needs one. -/
def escape? (code : Nat) : Option (List Char) :=
  match letterEscapes.lookup code with
  | some letter => some ['\\', letter]
  | none =>
    if 32 ≤ code ∧ code ≤ 126 then none
    else if code < 0x100 then some ('\\' :: 'x' :: escapeDigits 2 code)
    else if code < 0x10000 then some ('\\' :: 'u' :: escapeDigits 4 code)
    else some ('\\' :: 'U' :: escapeDigits 8 code)

/-- What was last written of a double-quoted text. -/
inductive LastWritten where
  /-- Nothing yet. -/
  | opening
  /-- An escape. -/
  | escape
  /-- A character that stands for itself. -/
  | bare
  deriving DecidableEq

/-- A double-quoted text from `column` on. A full line is folded before a space, before a character
that follows an escape, and after an escape. The fold is escaped, and so is a space that the next
line begins with. -/
def foldedEscapes (m : Margins) (column : Nat) (last : LastWritten) : List Nat → List Char
  | [] => []
  | code :: rest =>
    let mayFold := last ≠ .opening && rest ≠ []
    match escape? code with
    | some escape =>
      -- After an escape a line may be one column longer.
      let column := column + escape.length
      if mayFold && m.isFull (column - 1) then
        let guard : List Char := if rest.head? = some 32 then ['\\'] else []
        escape ++ '\\' :: newLine m.indent ++ guard ++
          foldedEscapes m (m.indent + guard.length) .escape rest
      else escape ++ foldedEscapes m column .escape rest
    | none =>
      if mayFold && (code = 32 || last = .escape) && m.isFull column then
        let guard : List Char := if code = 32 then ['\\'] else []
        '\\' :: newLine m.indent ++ guard ++ Char.ofNat code ::
          foldedEscapes m (m.indent + guard.length + 1) .bare rest
      else Char.ofNat code :: foldedEscapes m (column + 1) .bare rest

/-- The text with these code points in a style, from `column` on. -/
def Style.text (m : Margins) (column : Nat) (codes : List Nat) : Style → List Char
  | .plain => folded m false column ' ' (codes.map Char.ofNat)
  | .single => '\'' :: folded m true (column + 1) ' ' (codes.map Char.ofNat) ++ ['\'']
  | .double => '"' :: foldedEscapes m (column + 1) .opening codes ++ ['"']

end PolicyAuthoring.Yaml
