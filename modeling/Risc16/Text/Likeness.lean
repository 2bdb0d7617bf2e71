import Risc16.Text.Order

/-!
# Likeness of names

Which of the known names a mistyped word may have meant. Two texts are compared by their common
blocks: the longest block that both have, then the longest to its left and to its right, and so on.
The likeness is the share of the characters of both texts that lie in common blocks.

In a long word the characters that come up all the time say little. A block never starts from one of
them, but a block that stands next to equal ones grows over them.
-/

namespace Risc16.Text

/-- A common block: where it starts in each of two texts, and how long it is. -/
structure Block where
  left : Nat
  right : Nat
  length : Nat
deriving DecidableEq, Repr

/-- The lengths of the common runs that end with `c` in the first text and with each character of
the second text, from the lengths one character before. `diagonal` is the length for the character
before `other`. -/
def runLengths (seeds : Char → Bool) (c : Char) (diagonal : Nat) : List Char → List Nat → List Nat
  | o :: other, length :: before =>
    (if o = c ∧ seeds o then diagonal + 1 else 0) :: runLengths seeds c length other before
  | _, _ => []

/-- The better of a block and the runs that end at position `i` of the first text, of which `runs`
gives the lengths from position `j` of the second text on. A run has to be longer to be better. -/
def bestRun (i j : Nat) (best : Block) : List Nat → Block
  | [] => best
  | length :: runs =>
    bestRun i (j + 1)
      (if best.length < length then ⟨i + 1 - length, j + 1 - length, length⟩ else best) runs

/-- The better of a block and the runs that end at position `i` of the first text or later. -/
def bestBlockFrom (seeds : Char → Bool) (other : List Char) (i : Nat) (best : Block)
    (before : List Nat) : List Char → Block
  | [] => best
  | c :: text =>
    let runs := runLengths seeds c 0 other before
    bestBlockFrom seeds other (i + 1) (bestRun i 0 best runs) runs text

/-- How many characters two texts have in common at their start. -/
def commonStart : List Char → List Char → Nat
  | a :: as, b :: bs => if a = b then commonStart as bs + 1 else 0
  | _, _ => 0

/-- The block grown to both sides as far as the texts agree. -/
def Block.grow (text other : List Char) (block : Block) : Block :=
  let back := commonStart (text.take block.left).reverse (other.take block.right).reverse
  let ahead := commonStart (text.drop (block.left + block.length))
    (other.drop (block.right + block.length))
  ⟨block.left - back, block.right - back, back + block.length + ahead⟩

/-- The longest common block of two texts, the first of them in the first text and then in the
second. Runs are made of the characters that `seeds` allows. -/
def longestBlock (seeds : Char → Bool) (text other : List Char) : Block :=
  (bestBlockFrom seeds other 0 ⟨0, 0, 0⟩ (other.map fun _ => 0) text).grow text other

/-- How many characters of two texts lie in common blocks. The block found lies within the first
text, so the second condition only serves to show that the parts beside it are shorter. -/
def commonLength (seeds : Char → Bool) (text other : List Char) : Nat :=
  let block := longestBlock seeds text other
  if 0 < block.length ∧ block.left + block.length ≤ text.length then
    block.length +
      commonLength seeds (text.take block.left) (other.take block.right) +
      commonLength seeds (text.drop (block.left + block.length))
        (other.drop (block.right + block.length))
  else 0
termination_by text.length
decreasing_by
  · simp +zetaDelta only [List.length_take] at *
    omega
  · simp +zetaDelta only [List.length_drop] at *
    omega

/-- The characters that come up all the time in a word: in one of 200 characters or more, those that
come up more often than once in a hundred, and once besides. -/
def frequentChars (word : List Char) : List Char :=
  if word.length < 200 then []
  else word.eraseDups.filter fun c => word.length / 100 + 1 < word.count c

/-- The likeness of two texts: twice `common` out of `total` characters. -/
structure Likeness where
  common : Nat
  total : Nat
deriving DecidableEq, Repr

/-- The likeness of a name to a word. Two empty texts are wholly alike. -/
def likeness (word name : List Char) : Likeness :=
  if word.length + name.length = 0 then ⟨1, 2⟩
  else
    let frequent := frequentChars word
    ⟨commonLength (fun c => !frequent.contains c) name word, name.length + word.length⟩

/-- Whether a likeness is three fifths or more. -/
def Likeness.isClose (l : Likeness) : Bool :=
  3 * l.total ≤ 10 * l.common

/-- Whether `l` is less than `m`, as fractions. -/
def Likeness.lt (l m : Likeness) : Bool :=
  l.common * m.total < m.common * l.total

/-- A name with its likeness to some word. -/
structure Candidate where
  likeness : Likeness
  name : String
deriving DecidableEq, Repr

/-- Whether `a` ranks before `b` or is `b`: by the greater likeness, then by the later name. -/
def Candidate.ranksBefore (a b : Candidate) : Bool :=
  b.likeness.lt a.likeness ||
    (!a.likeness.lt b.likeness && codePointLe b.name.toList a.name.toList)

/-- The names close to a word, the best first and at most three. -/
def closeNames (word : String) (names : List String) : List String :=
  let candidates := names.map fun name => Candidate.mk (likeness word.toList name.toList) name
  let ranked := (candidates.filter fun c => c.likeness.isClose).mergeSort Candidate.ranksBefore
  (ranked.take 3).map Candidate.name

end Risc16.Text
