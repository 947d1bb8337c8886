import PolicyAuthoring.Files
import PolicyAuthoring.Compilation
import PolicyAuthoring.Settings

/-!
# Runs

A run of the program reads files, writes files and prints. What it has written and printed stays
when it ends in a fault, so the state of a run goes on beside its faults. A file is opened before it
is written, and that empties it; opening fails for a path that cannot be written to. Printing fails
at a text with a code point that the stream for output does not take, such as a lone surrogate on a
stream in UTF-8, and then nothing of that text is printed.
-/

namespace PolicyAuthoring.CommandLine

/-- The code points that a stream in UTF-8 takes: all but the surrogates. -/
def encodesUtf8 (code : Nat) : Bool := code.isValidChar

/-- What the program finds when it is started. -/
structure Surroundings where
  /-- The files. -/
  files : Files
  /-- The environment. -/
  env : Environment
  /-- The clock. -/
  clock : Clock
  /-- A token that is never used again. -/
  token : Nat
  /-- Whether a path can be opened for writing. -/
  writable : String → Bool := fun _ => true
  /-- Whether the stream for output takes a code point. -/
  encodes : Nat → Bool := encodesUtf8

/-- What a run has left behind so far. -/
structure World where
  /-- The files. -/
  files : Files
  /-- What was printed. -/
  printed : CodePoints := []

/-- Why a run ends without an exit code of its own. -/
inductive RunFault where
  /-- An operation has no result, and the program has no line for that. -/
  | operation (fault : Fault)
  /-- This path cannot be opened for writing. -/
  | unwritable (path : String)
  /-- The stream for output does not take this code point. -/
  | unprintable (code : Nat)

/-- The text of a fault of a run. -/
def RunFault.message : RunFault → CodePoints
  | .operation fault => fault.message
  | .unwritable path => "Cannot write " ++ path
  | .unprintable code => "Cannot print code point " ++ decimalText code

/-- A run, or a part of one. -/
abbrev Run := EStateM RunFault World

/-- What can fail without leaving anything behind can be part of a run. -/
instance : MonadLift (Except Fault) Run where
  monadLift
    | .ok a => pure a
    | .error fault => throw (.operation fault)

namespace Run

/-- Read in the files. -/
def load {α : Type} (read : Files → Except Fault α) : Run α := do read (← get).files

/-- Write to a file that was opened. -/
def append (path text : String) : Run Unit :=
  modify fun world => { world with files := world.files.append path text }

end Run

namespace Surroundings

variable (s : Surroundings)

/-- The stream for output takes a text. -/
def Takes (text : CodePoints) : Prop := ∀ code ∈ text, s.encodes code = true

instance (text : CodePoints) : Decidable (s.Takes text) :=
  inferInstanceAs (Decidable (∀ code ∈ text, s.encodes code = true))

/-- Open a file for writing, which empties it. -/
def openFile (path : String) : Run Unit := do
  unless s.writable path do throw (.unwritable path)
  modify fun world => { world with files := world.files.write path "" }

/-- Print a text. -/
def print (text : CodePoints) : Run Unit :=
  match text.find? fun code => !s.encodes code with
  | some code => throw (.unprintable code)
  | none => modify fun world => { world with printed := world.printed ++ text }

/-- Print a text and end the line. -/
def printLine (text : CodePoints) : Run Unit := do
  s.print text
  s.print "\n"

end Surroundings

end PolicyAuthoring.CommandLine
