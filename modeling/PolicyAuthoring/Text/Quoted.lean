import PolicyAuthoring.Text.Printable

/-!
# Quoted texts

A text between quotes, as it stands inside the text of a list or mapping and in messages. The
quotes are single ones unless the text holds a single quote and no double one. The quote itself,
the backslash, line breaks, tabs and what is not printable are escaped.
-/

namespace PolicyAuthoring.Text

/-- The hexadecimal digits of a number, padded with zeros to a width. -/
def hexDigits (width n : Nat) : List Char :=
  let digits := Nat.toDigits 16 n
  List.replicate (width - digits.length) '0' ++ digits

/-- A code point inside quotes. -/
def quotedCode (quote : Char) (code : Nat) : List Char :=
  if code = quote.toNat ∨ code = '\\'.toNat then ['\\', Char.ofNat code]
  else if code = 9 then ['\\', 't']
  else if code = 10 then ['\\', 'n']
  else if code = 13 then ['\\', 'r']
  else if isPrintable code then [Char.ofNat code]
  else if code < 0x100 then '\\' :: 'x' :: hexDigits 2 code
  else if code < 0x10000 then '\\' :: 'u' :: hexDigits 4 code
  else '\\' :: 'U' :: hexDigits 8 code

/-- A text, given by its code points, in quotes. -/
def quoted (codes : List Nat) : String :=
  let quote := if codes.contains '\''.toNat && !codes.contains '"'.toNat then '"' else '\''
  String.ofList (quote :: (codes.flatMap (quotedCode quote) ++ [quote]))

end PolicyAuthoring.Text
