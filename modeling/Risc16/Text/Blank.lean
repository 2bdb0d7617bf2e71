/-!
# White space

The characters that may stand between words, and the trimming of text by a class of characters.
-/

namespace Risc16.Text

/-- Whether a character is white space: the control characters that move the cursor or separate
records, the space, and the spaces and separators of other scripts. Characters of zero width are not
white space. -/
def isBlank (c : Char) : Bool :=
  let n := c.toNat
  (9 ≤ n && n ≤ 13) || (28 ≤ n && n ≤ 32) || n == 0x85 || n == 0xA0 || n == 0x1680 ||
    (0x2000 ≤ n && n ≤ 0x200A) || n == 0x2028 || n == 0x2029 || n == 0x202F || n == 0x205F ||
    n == 0x3000

/-- The text without the longest run at its end whose characters all satisfy `p`. -/
def dropEndWhile (p : Char → Bool) (text : List Char) : List Char :=
  (text.reverse.dropWhile p).reverse

/-- A character that is not dropped keeps all that stands before it. -/
theorem dropEndWhile_append_cons {p : Char → Bool} {c : Char} (hc : p c = false)
    (front rest : List Char) :
    dropEndWhile p (front ++ c :: rest) = front ++ c :: dropEndWhile p rest := by
  have hstays : (rest.reverse ++ [c]).dropWhile p = rest.reverse.dropWhile p ++ [c] := by
    rw [List.dropWhile_append, List.dropWhile_cons_of_neg (by simp [hc])]
    split
    · next hnil => rw [List.isEmpty_iff.1 hnil, List.nil_append]
    · rfl
  unfold dropEndWhile
  rw [List.reverse_append, List.reverse_cons, List.dropWhile_append, hstays]
  simp

/-- The text without the runs at both ends whose characters all satisfy `p`. -/
def trimBy (p : Char → Bool) (text : List Char) : List Char :=
  dropEndWhile p (text.dropWhile p)

/-- The text without the white space around it. -/
def trim (text : List Char) : List Char :=
  trimBy isBlank text

end Risc16.Text
