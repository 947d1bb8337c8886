import PolicyAuthoring.Text.Blank

/-!
# Decimal digits and integer texts

Every script's decimal digits come as ten consecutive code points from zero to nine. An integer
text is a sign, which may be missing, and digits of any script, in which single underscores may
stand between two digits. Blanks around it are ignored, the information separators excepted.
-/

namespace PolicyAuthoring.Text

/-- The code points of the digit zero in every script. -/
def zeroDigits : List Nat :=
  [0x30, 0x660, 0x6F0, 0x7C0, 0x966, 0x9E6, 0xA66, 0xAE6, 0xB66, 0xBE6, 0xC66, 0xCE6, 0xD66, 0xDE6,
   0xE50, 0xED0, 0xF20, 0x1040, 0x1090, 0x17E0, 0x1810, 0x1946, 0x19D0, 0x1A80, 0x1A90, 0x1B50,
   0x1BB0, 0x1C40, 0x1C50, 0xA620, 0xA8D0, 0xA900, 0xA9D0, 0xA9F0, 0xAA50, 0xABF0, 0xFF10, 0x104A0,
   0x10D30, 0x11066, 0x110F0, 0x11136, 0x111D0, 0x112F0, 0x11450, 0x114D0, 0x11650, 0x116C0,
   0x11730, 0x118E0, 0x11950, 0x11C50, 0x11D50, 0x11DA0, 0x16A60, 0x16AC0, 0x16B50, 0x1D7CE,
   0x1D7D8, 0x1D7E2, 0x1D7EC, 0x1D7F6, 0x1E140, 0x1E2F0, 0x1E950, 0x1FBF0]

/-- The value of a decimal digit of any script. -/
def digitValue? (c : Char) : Option Nat :=
  (zeroDigits.find? fun start => start ≤ c.toNat && c.toNat ≤ start + 9).map (c.toNat - ·)

/-- The digit values of a run of digits with single underscores between them. -/
def digitRun? : List Char → Option (List Nat)
  | [] => none
  | [c] => (digitValue? c).map ([·])
  | c :: '_' :: rest => do
    let d ← digitValue? c
    return d :: (← digitRun? rest)
  | c :: rest => do
    let d ← digitValue? c
    return d :: (← digitRun? rest)

/-- The number that a list of digits stands for. -/
def ofDigits (base : Nat) (digits : List Nat) : Nat :=
  digits.foldl (fun n d => n * base + d) 0

/-- The natural number written by a run of digits. -/
def natural? (cs : List Char) : Option Nat := (digitRun? cs).map (ofDigits 10)

/-- Whether a character may surround an integer text. -/
def surroundsInteger (c : Char) : Bool := isBlank c && !(28 ≤ c.toNat && c.toNat ≤ 31)

/-- The integer that a text writes. -/
def integer? (s : String) : Option Int :=
  match trimBlank surroundsInteger s.toList with
  | '-' :: cs => (natural? cs).map fun n => -(n : Int)
  | '+' :: cs => (natural? cs).map fun n => (n : Int)
  | cs => (natural? cs).map fun n => (n : Int)

end PolicyAuthoring.Text
