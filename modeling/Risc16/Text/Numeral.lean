import Risc16.Text.Blank
import Risc16.Text.Digit

/-!
# Numerals

Reading of decimal numerals, and the number columns of the reports. A numeral may have at most
`digitLimit` digits, leading zeros counted, whether it is read or written.
-/

namespace Risc16.Text

/-- The most digits that a numeral may have. -/
def digitLimit : Nat := 4300

/-- The number written by the digits `0` to `9`, if there are not too many of them. -/
def readDigits? (digits : List Char) : Option Nat :=
  if digits.length ≤ digitLimit then some (Nat.ofDigitChars 10 digits 0) else none

/-- Whether a number has too many digits to be written. -/
def isTooLong (n : Int) : Bool :=
  digitLimit < (Nat.toDigits 10 n.natAbs).length

/-- Whether a character may stand around the numeral of a setting: white space, the four record
separators apart. -/
def isMargin (c : Char) : Bool :=
  isBlank c && !(28 ≤ c.toNat && c.toNat ≤ 31)

/-- The digit values of a numeral with single underscores between its digits. `afterDigit` says
whether a digit stands just before. -/
def digitValues? (afterDigit : Bool) : List Char → Option (List Nat)
  | [] => if afterDigit then some [] else none
  | c :: rest =>
    if c = '_' then
      if afterDigit then digitValues? false rest else none
    else
      match decimalDigit? c with
      | some d => (digitValues? true rest).map (d :: ·)
      | none => none

/-- The number that a numeral without sign gives, in the digits of any script. -/
def readNatural? (text : List Char) : Option Nat :=
  match digitValues? false text with
  | some digits =>
    if digits.length ≤ digitLimit then some (digits.foldl (fun n d => 10 * n + d) 0) else none
  | none => none

/-- The integer that the text of a setting gives: one optional sign and a numeral, with white space
around them. -/
def readInteger? (text : List Char) : Option Int :=
  match trimBy isMargin text with
  | '-' :: rest => (readNatural? rest).map (fun n => -(n : Int))
  | '+' :: rest => (readNatural? rest).map Int.ofNat
  | rest => (readNatural? rest).map Int.ofNat

/-- The text with `fill` put before it until it has `width` characters. -/
def padStart (width : Nat) (fill : Char) (text : List Char) : List Char :=
  List.replicate (width - text.length) fill ++ text

/-- The text with `fill` put after it until it has `width` characters. -/
def padEnd (width : Nat) (fill : Char) (text : List Char) : List Char :=
  text ++ List.replicate (width - text.length) fill

/-- The hexadecimal digits of a number, in capitals. -/
def hexDigits (n : Nat) : List Char :=
  (Nat.toDigits 16 n).map Char.toUpper

/-- An integer in hexadecimal capitals, filled with zeros after the sign to `width` characters. -/
def hexText (width : Nat) (n : Int) : String :=
  String.ofList <|
    if n < 0 then '-' :: padStart (width - 1) '0' (hexDigits n.natAbs)
    else padStart width '0' (hexDigits n.natAbs)

end Risc16.Text
