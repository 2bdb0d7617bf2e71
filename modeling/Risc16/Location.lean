/-!
# Places in source text
-/

namespace Risc16

/-- A place in source text. Lines and columns count from one. -/
structure Location where
  file : String
  line : Int
  column : Int
deriving DecidableEq, Repr

/-- The place as messages show it. -/
def Location.render (l : Location) : String :=
  s!"{l.file}:{l.line}:{l.column}"

/-- A value with the place where the source gives it. -/
structure Located (α : Type) where
  value : α
  location : Location
deriving DecidableEq, Repr

end Risc16
