/-!
# Control characters

Some characters are not read as part of a text. A zero character ends a text for the system, so a
text with one cannot be handed to it. A control sequence is obeyed by a terminal instead of being
shown, for instance as a change of colour; plain text is what is left without such sequences.
-/

namespace Risc16.Text

/-- Whether a text holds a zero character. -/
def hasZero (text : String) : Bool :=
  text.toList.contains '\x00'

/-- Whether a character may stand between the bracket and the letter of a control sequence. -/
def isParameter (c : Char) : Bool :=
  c == ';' || c == '?' || c.isDigit

/-- The length of the control sequence at the start of a text, zero if there is none. A control
sequence is an escape, an opening bracket, any parameters and one letter. -/
def controlLength : List Char → Nat
  | '\x1b' :: '[' :: rest =>
    match rest.dropWhile isParameter with
    | [] => 0
    | last :: _ => if last.isAlpha then (rest.takeWhile isParameter).length + 3 else 0
  | _ => 0

/-- The text without its next `skip` characters and without the control sequences after them. Each
sequence is looked for in the text as it was given, so two pieces that meet where a sequence is
left out are not read as another one. -/
def dropControls (skip : Nat) : List Char → List Char
  | [] => []
  | c :: rest =>
    match skip with
    | n + 1 => dropControls n rest
    | 0 =>
      match controlLength (c :: rest) with
      | 0 => c :: dropControls 0 rest
      | n + 1 => dropControls n rest

/-- The text without its control sequences. -/
def plain (text : String) : String :=
  String.ofList (dropControls 0 text.toList)

end Risc16.Text
