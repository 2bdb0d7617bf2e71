import Risc16.Failure
import Risc16.Output
import Risc16.Text.Lines

/-!
# Sessions

An assembler that is used again and again. Each assembly starts afresh; the session keeps the
settings and the output of the last assembly. A source with a fault leaves no output, and a file
that cannot be read leaves the output as it was. Between assemblies the settings can be changed and
the output can be looked at.
-/

namespace Risc16

/-- A step of an assembly that is worth telling. -/
inductive Event
  | assembling (file : String)
  | parsed (file : String) (instructions labels : Nat)
  | encoded (words : Nat)
  | generated (bytes : Nat) (file : String)
deriving DecidableEq, Repr

/-- The step in words. -/
def Event.message : Event → String
  | .assembling file => s!"assembling {file}"
  | .parsed file instructions labels =>
    s!"parsed {file}: {instructions} instructions, {labels} labels"
  | .encoded words => s!"encoded {words} words"
  | .generated bytes file => s!"generated {bytes} bytes for {file}"

/-- An assembly of a source text: the steps that were taken and the output. -/
structure Assembly where
  events : List Event
  result : Except Diagnostic Output

/-- Assemble a source text. -/
def Assembly.ofSource (s : Settings) (file : String) (source : List Char) : Assembly :=
  match Draft.ofSource file source with
  | .error d => ⟨[.assembling file], .error d⟩
  | .ok draft =>
    let events := [.assembling file, .parsed file draft.program.size draft.symbols.size]
    match draft.program.build s draft.symbols with
    | .error d => ⟨events, .error d⟩
    | .ok output => ⟨events ++ [.encoded output.words.length], .ok output⟩

/-- The bytes of an output. -/
def Output.code (o : Output) : Except Failure (List UInt8) :=
  o.image.mapError .wideWord

/-- An assembler with its settings and its last output. -/
structure Session where
  settings : Settings
  output : Output

namespace Session

/-- A session that has not assembled anything. -/
def new (s : Settings) : Except Failure Session :=
  if s.isValid then .ok ⟨s, Output.empty⟩ else .error (.capacity s.capacity)

/-- What an assembly gives: the steps taken, the bytes, and the session after it. -/
structure Step where
  events : List Event
  result : Except Failure (List UInt8)
  session : Session

/-- Assemble a source text. The output is there as soon as all words are, even if one of them
turns out too wide for the bytes. -/
def assemble (file : String) (source : List Char) (session : Session) : Step :=
  let assembly := Assembly.ofSource session.settings file source
  match assembly.result with
  | .error d => ⟨assembly.events, .error (.ofReport d), { session with output := .empty }⟩
  | .ok output =>
    let after := { session with output := output }
    match output.code with
    | .ok bytes => ⟨assembly.events ++ [.generated bytes.length file], .ok bytes, after⟩
    | .error failure => ⟨assembly.events, .error failure, after⟩

/-- Assemble what was read from a file. -/
def assembleFile (path : Path) (contents : Except FileFault (List UInt8)) (session : Session) :
    Step :=
  match Failure.ofTexts? [path.render], contents with
  | some failure, _ => ⟨[], .error failure, session⟩
  | none, .error fault => ⟨[], .error (.file path fault), session⟩
  | none, .ok bytes =>
    match Text.Utf8.decode bytes with
    | .error fault => ⟨[], .error (.notText fault), session⟩
    | .ok text => session.assemble path.render (Text.unifyLineEnds text)

/-- A way to look at the output. -/
inductive View
  | words
  | code
  | symbols
  | listing
  | symbolFile
deriving DecidableEq, Repr

/-- What can be asked of a session. A file comes with what reading it gives at that time. Settings
that are not named stay as they are, and new ones are not checked. -/
inductive Call
  | assemble (file : String) (source : List Char)
  | assembleFile (path : Path) (contents : Except FileFault (List UInt8))
  | configure (capacity? : Option Int) (strictDevices? : Option Bool)
  | look (view : View)

/-- What a session says to a call. -/
inductive Answer
  | configured
  | bytes (result : Except Failure (List UInt8))
  | words (words : List Nat)
  | addresses (rows : List (String × Int))
  | text (text : String)

end Session

/-- What there is to see of an output. -/
def Output.look (o : Output) : Session.View → Session.Answer
  | .words => .words o.words
  | .code => .bytes o.code
  | .symbols => .addresses o.symbols.addresses
  | .listing => .text o.listing
  | .symbolFile => .text o.symbolFile

/-- Settings with new values for some of them. -/
def Settings.assign (s : Settings) (capacity? : Option Int) (strictDevices? : Option Bool) :
    Settings :=
  ⟨capacity?.getD s.capacity, strictDevices?.getD s.strictDevices⟩

namespace Session

/-- Carry out a call. -/
def perform (session : Session) : Call → Answer × Session
  | .assemble file source =>
    let step := session.assemble file source
    (.bytes step.result, step.session)
  | .assembleFile path contents =>
    let step := session.assembleFile path contents
    (.bytes step.result, step.session)
  | .configure capacity? strictDevices? =>
    (.configured, { session with settings := session.settings.assign capacity? strictDevices? })
  | .look view => (session.output.look view, session)

/-- Carry out calls one after another. -/
def performAll (session : Session) (calls : List Call) : List Answer × Session :=
  answerAll perform session calls

end Session

end Risc16
