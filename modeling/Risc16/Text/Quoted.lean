import Risc16.Text.Printable
import Risc16.Text.Numeral

/-!
# Quoted text

How a message shows a text from outside: between quotes, with a backslash before what would be
misread and a code for what cannot be seen.
-/

namespace Risc16.Text

/-- The quote around a text: the single one, unless the text has single quotes and no double one. -/
def quoteFor (text : List Char) : Char :=
  if text.contains '\'' && !text.contains '"' then '"' else '\''

/-- The code of a character that is not shown, in as many hexadecimal digits as its size needs. -/
def charCode (c : Char) : List Char :=
  let digits := Nat.toDigits 16 c.toNat
  if c.toNat < 0x100 then '\\' :: 'x' :: padStart 2 '0' digits
  else if c.toNat < 0x10000 then '\\' :: 'u' :: padStart 4 '0' digits
  else '\\' :: 'U' :: padStart 8 '0' digits

/-- How one character stands between the quotes `quote`. -/
def quotedChar (quote c : Char) : List Char :=
  if c = quote ∨ c = '\\' then ['\\', c]
  else if c = '\t' then ['\\', 't']
  else if c = '\n' then ['\\', 'n']
  else if c = '\r' then ['\\', 'r']
  else if isPrintable c then [c]
  else charCode c

/-- A text between quotes. -/
def quoted (text : String) : String :=
  let chars := text.toList
  let quote := quoteFor chars
  String.ofList (quote :: chars.flatMap (quotedChar quote) ++ [quote])

end Risc16.Text
