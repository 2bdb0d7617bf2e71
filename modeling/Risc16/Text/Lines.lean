import Risc16.Text.Blank

/-!
# Lines of text

A text is cut at its line feeds. Text that comes from a file may end its lines in other ways; there
all line ends are first made the same.
-/

namespace Risc16.Text

/-- No part between marks has the mark in it. -/
theorem notMem_of_mem_splitOn {mark : Char} {text part : List Char}
    (h : part ∈ text.splitOn mark) : mark ∉ part := by
  induction text generalizing part with
  | nil =>
    cases List.mem_singleton.1 h
    exact List.not_mem_nil
  | cons c text ih =>
    obtain ⟨first, parts, htext⟩ := List.exists_cons_of_ne_nil (List.splitOn_ne_nil mark text)
    rw [List.splitOn_cons_eq_if_modifyHead] at h
    split at h
    · rcases List.mem_cons.1 h with rfl | h
      · exact List.not_mem_nil
      · exact ih h
    · next hc =>
      rw [htext] at ih h
      rcases List.mem_cons.1 h with rfl | h
      · intro hmark
        rcases List.mem_cons.1 hmark with rfl | hmark
        · exact hc (beq_self_eq_true _)
        · exact ih List.mem_cons_self hmark
      · exact ih (List.mem_cons_of_mem first h)

/-- The lines of a text, without the line feeds between them. -/
def splitLines (text : List Char) : List (List Char) :=
  text.splitOn '\n'

/-- A line without the carriage returns and line feeds at its end. -/
def dropLineEnd (line : List Char) : List Char :=
  dropEndWhile (fun c => c == '\r' || c == '\n') line

/-- A line that does not end with one of them stays as it is. -/
theorem dropLineEnd_of_getLast? {line : List Char}
    (h : ∀ c, line.getLast? = some c → c ≠ '\r' ∧ c ≠ '\n') : dropLineEnd line = line := by
  cases hlast : line.getLast? with
  | none =>
    rw [List.getLast?_eq_none_iff.1 hlast]
    rfl
  | some c =>
    obtain ⟨front, rfl⟩ := List.getLast?_eq_some_iff.1 hlast
    obtain ⟨hreturn, hfeed⟩ := h c hlast
    exact dropEndWhile_append_cons (by simp [hreturn, hfeed]) front []

/-- The text with every line end written as one line feed: a carriage return and the line feed after
it count as one line end, and so does a carriage return alone. -/
def unifyLineEnds : List Char → List Char
  | [] => []
  | '\r' :: '\n' :: rest => '\n' :: unifyLineEnds rest
  | '\r' :: rest => '\n' :: unifyLineEnds rest
  | c :: rest => c :: unifyLineEnds rest

/-- Lines as text, each with its line feed. -/
def ofLines (lines : List String) : String :=
  String.join (lines.map (· ++ "\n"))

theorem toList_ofLines_cons (line : String) (lines : List String) :
    (ofLines (line :: lines)).toList = line.toList ++ '\n' :: (ofLines lines).toList := by
  simp [ofLines, String.toList_join]

end Risc16.Text
