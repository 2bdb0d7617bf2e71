import Risc16.Text.Blank

/-!
# Pieces of a line

A line is cut into pieces before any of them is looked at. A piece is a comma or a word. White
space, commas and the start of a comment end a word, and so does a colon, which is still part of
it. A comment reaches from a semicolon to the end of the line.
-/

namespace Risc16

/-- A piece of a line with the column of its first character. -/
structure Piece where
  column : Nat
  text : List Char
deriving DecidableEq, Repr

namespace Piece

/-- Put a character that stands just before the pieces of the rest of the line, at `column`, in
front of them. It joins the word that starts at the next column, if there is one. -/
def attach (column : Nat) (c : Char) : List Piece → List Piece
  | [] => [⟨column, [c]⟩]
  | piece :: rest =>
    if piece.column = column + 1 ∧ piece.text ≠ [','] then ⟨column, c :: piece.text⟩ :: rest
    else ⟨column, [c]⟩ :: piece :: rest

/-- The pieces of a text whose first character is at `column`. -/
def cut (column : Nat) : List Char → List Piece
  | [] => []
  | c :: rest =>
    if c = ';' then []
    else if Text.isBlank c then cut (column + 1) rest
    else if c = ',' ∨ c = ':' then ⟨column, [c]⟩ :: cut (column + 1) rest
    else attach column c (cut (column + 1) rest)

end Piece

/-- The text before the comment. -/
def withoutComment (text : List Char) : List Char :=
  text.takeWhile (· ≠ ';')

end Risc16
