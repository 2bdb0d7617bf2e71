import Risc16.Calls
import Risc16.Failure
import Risc16.Text.Likeness

/-!
# Symbol tables

The labels of a program with their addresses, each name once, in the order of their declaration.
-/

namespace Risc16

/-- A label with its address and the place of its declaration, if it has one. -/
structure Symbol where
  name : String
  address : Int
  location? : Option Location
deriving DecidableEq, Repr

/-- The declared labels. No two have the same name. -/
structure SymbolTable where
  symbols : List Symbol
  nodup_names : (symbols.map Symbol.name).Nodup

namespace SymbolTable

/-- The table without labels. -/
def empty : SymbolTable :=
  ⟨[], List.nodup_nil⟩

/-- The label with this name. -/
def find? (t : SymbolTable) (name : String) : Option Symbol :=
  t.symbols.find? fun s => s.name == name

/-- Whether the name is declared. -/
def contains (t : SymbolTable) (name : String) : Bool :=
  (t.find? name).isSome

def size (t : SymbolTable) : Nat :=
  t.symbols.length

/-- The names in the order of their declaration. -/
def names (t : SymbolTable) : List String :=
  t.symbols.map Symbol.name

/-- The names with their addresses, in the order of their declaration. -/
def addresses (t : SymbolTable) : List (String × Int) :=
  t.symbols.map fun s => (s.name, s.address)

/-- The names with their addresses, in the order of the names. -/
def sortedAddresses (t : SymbolTable) : List (String × Int) :=
  t.addresses.mergeSort fun a b => Text.codePointLe a.1.toList b.1.toList

/-- The declared names close to a name, the best first. -/
def namesLike (t : SymbolTable) (name : String) : List String :=
  Text.closeNames name t.names

theorem find?_eq_none_iff (t : SymbolTable) (name : String) :
    t.find? name = none ↔ name ∉ t.names := by
  simp only [find?, names, List.find?_eq_none, List.mem_map, beq_iff_eq]
  constructor
  · rintro h ⟨s, hs, rfl⟩
    exact h s hs rfl
  · intro h s hs hname
    exact h ⟨s, hs, hname⟩

/-- A name that is not declared can be added at the end. -/
theorem nodup_names_append {t : SymbolTable} {s : Symbol} (h : t.find? s.name = none) :
    ((t.symbols ++ [s]).map Symbol.name).Nodup := by
  have fresh := (t.find?_eq_none_iff s.name).1 h
  rw [List.map_append, List.nodup_append]
  refine ⟨t.nodup_names, by simp, ?_⟩
  intro a ha b hb hab
  simp only [List.map_cons, List.map_nil, List.mem_singleton] at hb
  exact fresh (hb ▸ hab ▸ ha)

/-- Declare a label. A name can be declared once only; the message about a second declaration points
at the first. -/
def declare (t : SymbolTable) (s : Symbol) (sourceLine? : Option String) :
    Except Diagnostic SymbolTable :=
  match h : t.find? s.name with
  | some first =>
    .error ⟨.duplicateLabel s.name first.location?, s.location?, sourceLine?⟩
  | none => .ok ⟨t.symbols ++ [s], nodup_names_append h⟩

/-- The diagnostic about a label that is not declared. -/
def undefined (t : SymbolTable) (name : String) (location? : Option Location)
    (sourceLine? : Option String) : Diagnostic :=
  ⟨.undefinedLabel name (t.namesLike name), location?, sourceLine?⟩

/-- The address of a label. -/
def addressOf (t : SymbolTable) (name : String) (location? : Option Location)
    (sourceLine? : Option String) : Except Diagnostic Int :=
  match t.find? name with
  | some s => .ok s.address
  | none => .error (t.undefined name location? sourceLine?)

/-- What can be asked of a table. -/
inductive Call
  | declare (symbol : Symbol) (sourceLine? : Option String)
  | addressOf (name : String) (location? : Option Location) (sourceLine? : Option String)
  | find (name : String)
  | contains (name : String)
  | namesLike (name : String)
  | list
deriving DecidableEq, Repr

/-- What a table says to a call. -/
inductive Answer
  | declared (result : Except Failure Symbol)
  | address (result : Except Failure Int)
  | found (symbol? : Option Symbol)
  | contained (isDeclared : Bool)
  | close (names : List String)
  | listed (size : Nat) (addresses : List (String × Int)) (symbols : List Symbol)

/-- Carry out a call. A declaration that fails leaves the table as it was. The places in a call are
the caller's own, so a report about them may not be written. -/
def perform (t : SymbolTable) : Call → Answer × SymbolTable
  | .declare symbol sourceLine? =>
    match t.declare symbol sourceLine? with
    | .ok after => (.declared (.ok symbol), after)
    | .error d => (.declared (.error (.ofCallerReport d)), t)
  | .addressOf name location? sourceLine? =>
    (.address ((t.addressOf name location? sourceLine?).mapError .ofCallerReport), t)
  | .find name => (.found (t.find? name), t)
  | .contains name => (.contained (t.contains name), t)
  | .namesLike name => (.close (t.namesLike name), t)
  | .list => (.listed t.size t.addresses t.symbols, t)

/-- The answers to calls on a new table, one after another. -/
def answers (calls : List Call) : List Answer :=
  (answerAll perform empty calls).1

/-- The table after calls. -/
def after (calls : List Call) : SymbolTable :=
  (answerAll perform empty calls).2

end SymbolTable

end Risc16
