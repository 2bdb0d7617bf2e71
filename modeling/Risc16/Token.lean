import Risc16.Location

/-!
# Tokens

The words of a source line after they are classified.
-/

namespace Risc16

/-- What a token is. A register number may be one that the machine does not have. -/
inductive Lexeme
  | comma
  | lineEnd
  | mnemonic (name : String)
  | register (number : Nat)
  | immediate (value : Int)
  | labelDef (name : String)
  | label (name : String)
deriving DecidableEq, Repr

/-- A lexeme at its place. -/
structure Token where
  lexeme : Lexeme
  location : Location
deriving DecidableEq, Repr

namespace Lexeme

/-- The name of the kind of token. -/
def kindName : Lexeme → String
  | .comma => "COMMA"
  | .lineEnd => "EOL"
  | .mnemonic _ => "MNEMONIC"
  | .register _ => "REGISTER"
  | .immediate _ => "IMMEDIATE"
  | .labelDef _ => "LABEL_DEF"
  | .label _ => "LABEL"

/-- The value of the token as text, if its kind has values. -/
def value? : Lexeme → Option String
  | .comma | .lineEnd => none
  | .mnemonic name | .labelDef name | .label name => some name
  | .register number => some (toString number)
  | .immediate value => some (toString value)

/-- The value of the token as it stands in a dump of tokens: names between quotes. -/
def shownValue? : Lexeme → Option String
  | .comma | .lineEnd => none
  | .mnemonic name | .labelDef name | .label name => some s!"'{name}'"
  | .register number => some (toString number)
  | .immediate value => some (toString value)

/-- What messages call the token. -/
def describe : Lexeme → String
  | .comma => "','"
  | .lineEnd => "end of line"
  | .mnemonic name => s!"'{name}'"
  | .register number => s!"register 'r{number}'"
  | .immediate value => s!"immediate '{value}'"
  | .labelDef name => s!"label declaration '{name}:'"
  | .label name => s!"label '{name}'"

end Lexeme

/-- The token in a dump of tokens. -/
def Token.render (t : Token) : String :=
  match t.lexeme.shownValue? with
  | some value => s!"Token({t.lexeme.kindName}, {value}, {t.location.line}:{t.location.column})"
  | none => s!"Token({t.lexeme.kindName}, {t.location.line}:{t.location.column})"

end Risc16
