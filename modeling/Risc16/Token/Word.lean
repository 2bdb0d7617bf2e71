import Risc16.Token
import Risc16.Diagnostic
import Risc16.Text.Numeral

/-!
# Words

Which token a word is. Only the letters and digits of ASCII count in names and numbers.
-/

namespace Risc16.Word

/-- Whether a character may start a name. -/
def isNameStart (c : Char) : Bool :=
  c.isAlpha || c == '_'

/-- Whether a character may stand in a name. -/
def isNameChar (c : Char) : Bool :=
  c.isAlphanum || c == '_'

/-- Whether a text is a name. -/
def isName : List Char → Bool
  | [] => false
  | c :: rest => isNameStart c && rest.all isNameChar

/-- Whether a text is a digit or more. -/
def isNumeral (text : List Char) : Bool :=
  !text.isEmpty && text.all Char.isDigit

/-- The digits of a word that is shaped like a register: an `r` and a numeral. -/
def registerDigits? : List Char → Option (List Char)
  | 'r' :: digits => if isNumeral digits then some digits else none
  | _ => none

/-- The sign and the digits of a word that is shaped like an integer. -/
def integerDigits? : List Char → Option (Bool × List Char)
  | '-' :: digits => if isNumeral digits then some (true, digits) else none
  | '+' :: digits => if isNumeral digits then some (false, digits) else none
  | digits => if isNumeral digits then some (false, digits) else none

/-- Whether a word starts like an integer. -/
def startsLikeInteger : List Char → Bool
  | [] => false
  | c :: _ => c == '+' || c == '-' || c.isDigit

/-- The token that a word without a colon at its end is. A name is the instruction of the line if
`leading` says that none has come before, else it refers to a label. -/
def classifyPlain (leading : Bool) (word : List Char) : Except WordFault Lexeme :=
  match registerDigits? word with
  | some digits =>
    match Text.readDigits? digits with
    | some n => .ok (.register n)
    | none => .error .integer
  | none =>
    match integerDigits? word with
    | some (negative, digits) =>
      match Text.readDigits? digits with
      | some n => .ok (.immediate (if negative then -(n : Int) else n))
      | none => .error .integer
    | none =>
      if isName word then
        .ok (if leading then .mnemonic (String.ofList word) else .label (String.ofList word))
      else if startsLikeInteger word then .error .integer
      else .error .notAToken

/-- The token that a word is. A colon at the end declares a label. -/
def classify (leading : Bool) (word : List Char) : Except WordFault Lexeme :=
  if word.getLast? = some ':' then
    if isName word.dropLast then .ok (.labelDef (String.ofList word.dropLast))
    else .error (.labelName (String.ofList word.dropLast))
  else classifyPlain leading word

end Risc16.Word
