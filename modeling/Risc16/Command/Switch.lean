import Risc16.Text.Likeness

/-!
# Command words

The words after the name of the command: switches, their values, and arguments. A switch has a long
name after two dashes, and some have a letter after one dash as well. Letters can stand together
after one dash. A value follows its switch: after an equals sign, after the letter, or as the next
word, whatever that looks like. Two dashes alone end the switches.
-/

namespace Risc16.Command

/-- The switches of the command. -/
inductive Switch
  | output | listing | symbols | strict | capacity | verbose | version | help
deriving DecidableEq, Repr

namespace Switch

def all : List Switch :=
  [.output, .listing, .symbols, .strict, .capacity, .verbose, .version, .help]

/-- The long name. -/
def long : Switch → String
  | .output => "--output-path"
  | .listing => "--listing"
  | .symbols => "--symbols"
  | .strict => "--strict-io"
  | .capacity => "--max-instructions"
  | .verbose => "--verbose"
  | .version => "--version"
  | .help => "--help"

/-- The letter. -/
def letter? : Switch → Option Char
  | .output => some 'o'
  | .listing => some 'l'
  | .symbols => some 's'
  | .verbose => some 'v'
  | .strict | .capacity | .version | .help => none

/-- Whether a value follows. -/
def takesValue : Switch → Bool
  | .output | .listing | .symbols | .capacity => true
  | .strict | .verbose | .version | .help => false

/-- What messages call the switch. -/
def describe (s : Switch) : String :=
  match s.letter? with
  | some letter => s!"'-{letter}' / '{s.long}'"
  | none => s!"'{s.long}'"

def ofLong? (name : String) : Option Switch :=
  all.find? fun s => s.long == name

def ofLetter? (letter : Char) : Option Switch :=
  all.find? fun s => s.letter? == some letter

end Switch

/-- Why the switches among the words cannot be understood. -/
inductive SwitchFault
  | noSuchOption (name : String) (similar : List String)
  | missingValue (name : String)
  | unwantedValue (name : String)
deriving DecidableEq, Repr

/-- A switch that was given, with its value. A switch without values has the empty one. -/
structure Given where
  switch : Switch
  value : String
deriving DecidableEq, Repr

/-- A switch at the end of a word that still needs its value, and how it was written. -/
structure Pending where
  switch : Switch
  name : String
deriving DecidableEq, Repr

/-- The switches of one word. -/
structure SwitchWord where
  given : List Given
  pending? : Option Pending
deriving DecidableEq, Repr

/-- The words of a command, sorted into switches and arguments. -/
structure Words where
  given : List Given
  arguments : List String
deriving DecidableEq, Repr

/-- Read letters that stand together. The first letter that takes a value has the rest of the word
as its value, or the next word if nothing is left. -/
def readLetters : List Char → Except SwitchFault SwitchWord
  | [] => .ok ⟨[], none⟩
  | c :: rest =>
    match Switch.ofLetter? c with
    | none => .error (.noSuchOption s!"-{c}" [])
    | some s =>
      if s.takesValue then
        if rest.isEmpty then .ok ⟨[], some ⟨s, s!"-{c}"⟩⟩
        else .ok ⟨[⟨s, String.ofList rest⟩], none⟩
      else (readLetters rest).map fun word => { word with given := ⟨s, ""⟩ :: word.given }

/-- The part of a word before its first equals sign, and the part after it if there is one. -/
def splitValue (word : List Char) : List Char × Option (List Char) :=
  match word.dropWhile (· ≠ '=') with
  | [] => (word, none)
  | _ :: value => (word.takeWhile (· ≠ '='), some value)

/-- Read a word that starts with a dash. A word with one dash that is no long name is a row of
letters. -/
def readSwitch (word : List Char) : Except SwitchFault SwitchWord :=
  let (name, value?) := splitValue word
  match Switch.ofLong? (String.ofList name), value? with
  | some s, some value =>
    if s.takesValue then .ok ⟨[⟨s, String.ofList value⟩], none⟩
    else .error (.unwantedValue s.long)
  | some s, none =>
    if s.takesValue then .ok ⟨[], some ⟨s, s.long⟩⟩ else .ok ⟨[⟨s, ""⟩], none⟩
  | none, _ =>
    if ['-', '-'].isPrefixOf word then
      .error (.noSuchOption (String.ofList name)
        (Text.closeNames (String.ofList name) (Switch.all.map Switch.long)))
    else readLetters word.tail

/-- Whether a word is one of switches: a dash alone is an argument. -/
def isSwitchWord (word : String) : Bool :=
  match word.toList with
  | '-' :: _ :: _ => true
  | _ => false

/-- Put switches before the words that follow. -/
def Words.prepend (given : List Given) (w : Words) : Words :=
  { w with given := given ++ w.given }

/-- Sort words into switches and arguments. -/
def readWords : List String → Except SwitchFault Words
  | [] => .ok ⟨[], []⟩
  | word :: rest =>
    if word = "--" then .ok ⟨[], rest⟩
    else if isSwitchWord word then
      match readSwitch word.toList with
      | .error fault => .error fault
      | .ok ⟨given, none⟩ => (readWords rest).map (Words.prepend given)
      | .ok ⟨given, some pending⟩ =>
        match rest with
        | [] => .error (.missingValue pending.name)
        | value :: rest =>
          (readWords rest).map (Words.prepend (given ++ [⟨pending.switch, value⟩]))
    else (readWords rest).map fun w => { w with arguments := word :: w.arguments }

namespace Words

/-- The switches that were given, in the order of their first mention. -/
def mentioned (w : Words) : List Switch :=
  (w.given.map Given.switch).eraseDups

/-- The last value of a switch. -/
def value? (w : Words) (s : Switch) : Option String :=
  (w.given.reverse.find? fun g => g.switch == s).map Given.value

/-- Whether a switch was given. -/
def has (w : Words) (s : Switch) : Bool :=
  w.given.any fun g => g.switch == s

end Words

end Risc16.Command
