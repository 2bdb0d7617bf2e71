import Risc16.SourceLine
import Risc16.Token.Piece
import Risc16.Token.Word

/-!
# Token streams

The tokens of a line, one at a time or all at once. A line gives its tokens up to the first bad
word; if there is none, the end of the line is the last token. After the last token, and after a
bad word, a stream is exhausted.
-/

namespace Risc16

/-- The place of a reader in a line: the pieces still to come, whether the name of the instruction
may still come, and whether the stream is exhausted. -/
structure TokenStream where
  line : SourceLine
  pieces : List Piece
  leading : Bool
  exhausted : Bool
deriving DecidableEq, Repr

/-- What a stream gives when it is asked for the next token. -/
inductive Yield
  | token (token : Token)
  | fault (diagnostic : Diagnostic)
  | exhausted
deriving DecidableEq, Repr

/-- The tokens of a line, and the bad word that ends them if there is one. -/
structure TokenRun where
  tokens : List Token
  fault? : Option Diagnostic
deriving DecidableEq, Repr

/-- Whether the name of the instruction may still come after this token. -/
def Lexeme.keepsLeading : Lexeme → Bool
  | .labelDef _ | .comma => true
  | _ => false

/-- The token that a piece is. -/
def Piece.classify (leading : Bool) (piece : Piece) : Except WordFault Lexeme :=
  if piece.text = [','] then .ok .comma else Word.classify leading piece.text

namespace SourceLine

/-- The end of the line as a token: it stands where the comment starts. -/
def endToken (line : SourceLine) : Token :=
  ⟨.lineEnd, line.place ((withoutComment line.text).length + 1)⟩

/-- The diagnostic about a bad word. -/
def badWord (line : SourceLine) (piece : Piece) (fault : WordFault) : Diagnostic :=
  line.diagnose (line.place piece.column) (.word (String.ofList piece.text) fault)

/-- A stream at the start of the line. -/
def stream (line : SourceLine) : TokenStream :=
  ⟨line, Piece.cut 1 line.text, true, false⟩

/-- The tokens that pieces of the line give. -/
def runPieces (line : SourceLine) (leading : Bool) : List Piece → TokenRun
  | [] => ⟨[line.endToken], none⟩
  | piece :: rest =>
    match piece.classify leading with
    | .error fault => ⟨[], some (line.badWord piece fault)⟩
    | .ok lexeme =>
      let run := line.runPieces (leading && lexeme.keepsLeading) rest
      ⟨⟨lexeme, line.place piece.column⟩ :: run.tokens, run.fault?⟩

/-- All tokens of the line. -/
def run (line : SourceLine) : TokenRun :=
  line.runPieces true (Piece.cut 1 line.text)

/-- The tokens of the line, or its first bad word. -/
def tokens (line : SourceLine) : Except Diagnostic (List Token) :=
  match line.run.fault? with
  | some diagnostic => .error diagnostic
  | none => .ok line.run.tokens

end SourceLine

namespace TokenStream

/-- The next token, and the stream after it. -/
def next (s : TokenStream) : Yield × TokenStream :=
  if s.exhausted then (.exhausted, s)
  else
    match s.pieces with
    | [] => (.token s.line.endToken, { s with exhausted := true })
    | piece :: rest =>
      match piece.classify s.leading with
      | .error fault => (.fault (s.line.badWord piece fault), { s with exhausted := true })
      | .ok lexeme =>
        (.token ⟨lexeme, s.line.place piece.column⟩,
          { s with pieces := rest, leading := s.leading && lexeme.keepsLeading })

end TokenStream

/-- The tokens of a whole text, line by line up to the first bad word. -/
def TokenRun.ofLines : List SourceLine → TokenRun
  | [] => ⟨[], none⟩
  | line :: rest =>
    match line.run.fault? with
    | some diagnostic => ⟨line.run.tokens, some diagnostic⟩
    | none =>
      let run := ofLines rest
      ⟨line.run.tokens ++ run.tokens, run.fault?⟩

end Risc16
