import Risc16.Calls
import Risc16.Token.Stream

/-!
# Readers of a line

Several readers can take the tokens of one line, each from the first token on and at its own pace.
-/

namespace Risc16

/-- A line with its readers, in the order in which they were started. -/
structure Readers where
  line : SourceLine
  streams : List TokenStream
deriving DecidableEq, Repr

namespace Readers

/-- A line that nobody reads yet. -/
def new (line : SourceLine) : Readers :=
  ⟨line, []⟩

/-- What can be asked: a new reader, or the next token of a reader. Readers are known by their
numbers, from zero on. -/
inductive Call
  | start
  | next (reader : Nat)
deriving DecidableEq, Repr

/-- What the readers say to a call. -/
inductive Answer
  | started (reader : Nat)
  | gave (given : Yield)
  | noReader
deriving DecidableEq, Repr

/-- Carry out a call. -/
def perform (r : Readers) : Call → Answer × Readers
  | .start => (.started r.streams.length, { r with streams := r.streams ++ [r.line.stream] })
  | .next reader =>
    match r.streams[reader]? with
    | none => (.noReader, r)
    | some stream =>
      (.gave stream.next.1, { r with streams := r.streams.set reader stream.next.2 })

/-- The answers to calls, one after another. -/
def answers (line : SourceLine) (calls : List Call) : List Answer :=
  (answerAll perform (new line) calls).1

end Readers

end Risc16
