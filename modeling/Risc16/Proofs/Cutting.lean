import Mathlib.Data.List.Basic
import Risc16.Token.Piece

/-!
# Pieces as slices of a line

How a line is cut, said from left to right: white space is passed over, a comma stands alone, a word
goes as far as it can, and a comment ends the line. Every piece is then a slice of the line at its
own column.

Results:
1. `cuts_iff`: the pieces of a text are those that the rules give.
2. `Cuts.slice`: each piece is a slice of the text, a comma or a word that goes as far as it can.
3. `Cuts.ascend`, `Cuts.column_lt`: the slices follow one another, and all stand before the comment.
-/

namespace Risc16

/-! ## The rules -/

/-- Whether a character goes on a word. A colon ends one, and the others cannot be in one. -/
def Text.isPlain (c : Char) : Bool :=
  !isBlank c && c != ';' && c != ',' && c != ':'

/-- A word without a colon can end before this text: it is empty, or starts with white space, a
comma or a comment. -/
def Text.Breaks (rest : List Char) : Prop :=
  ∀ c, rest.head? = some c → isBlank c = true ∨ c = ',' ∨ c = ';'

/-- `FullWord word rest`: in front of `rest`, a word goes as far as it can. It ends with its first
colon, or where the text breaks. -/
inductive FullWord : List Char → List Char → Prop
  | colon {rest : List Char} : FullWord [':'] rest
  | last {c : Char} {rest : List Char} :
      Text.isPlain c = true → Text.Breaks rest → FullWord [c] rest
  | cons {c : Char} {word rest : List Char} :
      Text.isPlain c = true → FullWord word rest → FullWord (c :: word) rest

/-- `Cuts column text pieces`: a text that starts at `column` is cut into pieces. -/
inductive Cuts : Nat → List Char → List Piece → Prop
  | done {column : Nat} : Cuts column [] []
  | comment {column : Nat} {rest : List Char} : Cuts column (';' :: rest) []
  | blank {column : Nat} {c : Char} {rest : List Char} {pieces : List Piece} :
      Text.isBlank c = true → Cuts (column + 1) rest pieces → Cuts column (c :: rest) pieces
  | comma {column : Nat} {rest : List Char} {pieces : List Piece} :
      Cuts (column + 1) rest pieces → Cuts column (',' :: rest) (⟨column, [',']⟩ :: pieces)
  | word {column : Nat} {word rest : List Char} {pieces : List Piece} :
      FullWord word rest → Cuts (column + word.length) rest pieces →
      Cuts column (word ++ rest) (⟨column, word⟩ :: pieces)

/-! ## Words -/

theorem Text.isPlain_iff {c : Char} :
    Text.isPlain c = true ↔ Text.isBlank c = false ∧ c ≠ ';' ∧ c ≠ ',' ∧ c ≠ ':' := by
  simp [isPlain, and_assoc]

theorem Text.ne_comment_of_isBlank {c : Char} (h : Text.isBlank c = true) : c ≠ ';' := by
  rintro rfl
  revert h
  decide

namespace FullWord

variable {word rest : List Char}

theorem of_plain (hne : word ≠ []) (hplain : ∀ c ∈ word, Text.isPlain c = true)
    (hrest : Text.Breaks rest) : FullWord word rest := by
  induction word with
  | nil => exact absurd rfl hne
  | cons c word ih =>
    have hc := hplain c List.mem_cons_self
    cases word with
    | nil => exact .last hc hrest
    | cons d word =>
      exact .cons hc (ih (List.cons_ne_nil d word) fun e he => hplain e (List.mem_cons_of_mem c he))

theorem ne_nil (h : FullWord word rest) : word ≠ [] := by
  cases h <;> exact List.cons_ne_nil _ _

/-- No character of a word is a comma, or starts a comment. -/
theorem mem_ne (h : FullWord word rest) : ∀ c ∈ word, c ≠ ',' ∧ c ≠ ';' := by
  induction h with
  | colon =>
    intro c hc
    rw [List.mem_singleton.1 hc]
    decide
  | last hc _ =>
    obtain ⟨_, hcomment, hcomma, _⟩ := Text.isPlain_iff.1 hc
    intro d hd
    rw [List.mem_singleton.1 hd]
    exact ⟨hcomma, hcomment⟩
  | cons hc _ ih =>
    obtain ⟨_, hcomment, hcomma, _⟩ := Text.isPlain_iff.1 hc
    intro d hd
    rcases List.mem_cons.1 hd with rfl | hd
    · exact ⟨hcomma, hcomment⟩
    · exact ih d hd

theorem ne_comma (h : FullWord word rest) : word ≠ [','] := by
  rintro rfl
  exact (h.mem_ne ',' List.mem_cons_self).1 rfl

end FullWord

/-! ## The cut -/

namespace Piece

variable {column : Nat} {rest : List Char}

theorem cut_blank {c : Char} (hc : Text.isBlank c = true) :
    cut column (c :: rest) = cut (column + 1) rest := by
  rw [cut, if_neg (Text.ne_comment_of_isBlank hc), if_pos hc]

theorem cut_comma : cut column (',' :: rest) = ⟨column, [',']⟩ :: cut (column + 1) rest := by
  rw [cut, if_neg (by decide), if_neg (by decide), if_pos (by decide)]

theorem cut_colon : cut column (':' :: rest) = ⟨column, [':']⟩ :: cut (column + 1) rest := by
  rw [cut, if_neg (by decide), if_neg (by decide), if_pos (by decide)]

theorem cut_plain {c : Char} (hc : Text.isPlain c = true) :
    cut column (c :: rest) = attach column c (cut (column + 1) rest) := by
  obtain ⟨hblank, hcomment, hcomma, hcolon⟩ := Text.isPlain_iff.1 hc
  have hmark : ¬ (c = ',' ∨ c = ':') := by
    rintro (h | h)
    · exact hcomma h
    · exact hcolon h
  rw [cut, if_neg hcomment, if_neg (by simp [hblank]), if_neg hmark]

theorem attach_word {c : Char} {word : List Char} {pieces : List Piece} (hword : word ≠ [',']) :
    attach column c (⟨column + 1, word⟩ :: pieces) = ⟨column, c :: word⟩ :: pieces := by
  rw [attach, if_pos ⟨rfl, hword⟩]

/-- A character stays alone if no word starts right after it. -/
theorem attach_alone {c : Char} {pieces : List Piece}
    (h : ∀ piece ∈ pieces, piece.column = column + 1 → piece.text = [',']) :
    attach column c pieces = ⟨column, [c]⟩ :: pieces := by
  cases pieces with
  | nil => rfl
  | cons piece pieces =>
    have hpiece := h piece List.mem_cons_self
    rw [attach, if_neg (fun hjoin => hjoin.2 (hpiece hjoin.1))]

end Piece

namespace Cuts

variable {column : Nat} {text : List Char} {pieces : List Piece}

theorem column_le (h : Cuts column text pieces) : ∀ piece ∈ pieces, column ≤ piece.column := by
  induction h with
  | done | comment => simp
  | blank _ _ ih =>
    intro piece hpiece
    exact Nat.le_of_succ_le (ih piece hpiece)
  | comma _ ih =>
    intro piece hpiece
    rcases List.mem_cons.1 hpiece with rfl | hpiece
    · exact Nat.le_refl _
    · exact Nat.le_of_succ_le (ih piece hpiece)
  | word _ _ ih =>
    intro piece hpiece
    rcases List.mem_cons.1 hpiece with rfl | hpiece
    · exact Nat.le_refl _
    · exact Nat.le_trans (Nat.le_add_right _ _) (ih piece hpiece)

/-- Where the text breaks, a comma is the only piece that can stand at its start. -/
theorem comma_of_breaks (h : Cuts column text pieces) (hbreaks : Text.Breaks text) :
    ∀ piece ∈ pieces, piece.column = column → piece.text = [','] := by
  intro piece hpiece hcolumn
  cases h with
  | done | comment => cases hpiece
  | blank _ hrest =>
    have hle := hrest.column_le piece hpiece
    omega
  | comma hrest =>
    rcases List.mem_cons.1 hpiece with rfl | hpiece
    · rfl
    · have hle := hrest.column_le piece hpiece
      omega
  | word hword _ =>
    -- A word starts with a character that breaks nothing.
    exfalso
    cases hword with
    | colon =>
      have hcolon := hbreaks ':' rfl
      revert hcolon
      decide
    | @last c _ hc _ | @cons c _ _ hc _ =>
      obtain ⟨hblank, hcomment, hcomma, _⟩ := Text.isPlain_iff.1 hc
      rcases hbreaks c rfl with h | h | h
      · rw [hblank] at h
        cases h
      · exact hcomma h
      · exact hcomment h

/-- A character joins the word right after it, and else is a word on its own. -/
theorem attach {c : Char} {rest : List Char} (hc : Text.isPlain c = true)
    (h : Cuts (column + 1) rest pieces) :
    Cuts column (c :: rest) (Piece.attach column c pieces) := by
  by_cases hbreaks : Text.Breaks rest
  · rw [Piece.attach_alone (h.comma_of_breaks hbreaks)]
    exact .word (.last hc hbreaks) h
  · cases h with
    | done | comment => exact absurd (by simp [Text.Breaks]) hbreaks
    | blank hd _ => exact absurd (by simp [Text.Breaks, hd]) hbreaks
    | comma _ => exact absurd (by simp [Text.Breaks]) hbreaks
    | @word _ word _ _ hword hrest =>
      rw [Piece.attach_word hword.ne_comma]
      refine .word (.cons hc hword) ?_
      rwa [List.length_cons, Nat.add_comm word.length, ← Nat.add_assoc]

theorem of_cut (column : Nat) (text : List Char) : Cuts column text (Piece.cut column text) := by
  induction text generalizing column with
  | nil => exact .done
  | cons c rest ih =>
    by_cases hplain : Text.isPlain c = true
    · rw [Piece.cut_plain hplain]
      exact attach hplain (ih _)
    by_cases hcomment : c = ';'
    · subst hcomment
      exact .comment
    by_cases hcomma : c = ','
    · subst hcomma
      rw [Piece.cut_comma]
      exact .comma (ih _)
    by_cases hcolon : c = ':'
    · subst hcolon
      rw [Piece.cut_colon]
      exact .word .colon (ih _)
    · have hblank : Text.isBlank c = true := by
        by_contra hnot
        exact hplain (Text.isPlain_iff.2 ⟨by simpa using hnot, hcomment, hcomma, hcolon⟩)
      rw [Piece.cut_blank hblank]
      exact .blank hblank (ih _)

end Cuts

/-- A word in front of a text is its first piece. -/
theorem Piece.cut_word {column : Nat} {word rest : List Char} (h : FullWord word rest) :
    cut column (word ++ rest) = ⟨column, word⟩ :: cut (column + word.length) rest := by
  induction h generalizing column with
  | colon => exact cut_colon
  | last hc hbreaks =>
    rw [List.singleton_append, cut_plain hc]
    exact attach_alone ((Cuts.of_cut _ _).comma_of_breaks hbreaks)
  | @cons c word rest hc hword ih =>
    rw [List.cons_append, cut_plain hc, ih, attach_word hword.ne_comma, List.length_cons,
      Nat.add_comm word.length, ← Nat.add_assoc]

theorem cuts_iff {column : Nat} {text : List Char} {pieces : List Piece} :
    Cuts column text pieces ↔ pieces = Piece.cut column text := by
  constructor
  · intro h
    induction h with
    | done => rfl
    | comment => rfl
    | blank hc _ ih => rw [Piece.cut_blank hc, ih]
    | comma _ ih => rw [Piece.cut_comma, ih]
    | word hword _ ih => rw [Piece.cut_word hword, ih]
  · rintro rfl
    exact Cuts.of_cut column text

/-! ## Slices -/

namespace Cuts

variable {column : Nat} {text : List Char} {pieces : List Piece}

/-- A piece stands in the text at its column, as far from the start of the text. It is a comma or a
word that goes as far as it can. -/
theorem slice (h : Cuts column text pieces) : ∀ piece ∈ pieces, ∃ before after,
    text = before ++ piece.text ++ after ∧ piece.column = column + before.length ∧
      (piece.text = [','] ∨ FullWord piece.text after) := by
  induction h with
  | done | comment => simp
  | @blank _ c _ _ _ _ ih =>
    intro piece hpiece
    obtain ⟨before, after, rfl, hcolumn, htext⟩ := ih piece hpiece
    refine ⟨c :: before, after, rfl, ?_, htext⟩
    rw [hcolumn, List.length_cons]
    omega
  | comma _ ih =>
    intro piece hpiece
    rcases List.mem_cons.1 hpiece with rfl | hpiece
    · exact ⟨[], _, rfl, rfl, .inl rfl⟩
    · obtain ⟨before, after, rfl, hcolumn, htext⟩ := ih piece hpiece
      refine ⟨',' :: before, after, rfl, ?_, htext⟩
      rw [hcolumn, List.length_cons]
      omega
  | @word _ word _ _ hword _ ih =>
    intro piece hpiece
    rcases List.mem_cons.1 hpiece with rfl | hpiece
    · exact ⟨[], _, rfl, rfl, .inr hword⟩
    · obtain ⟨before, after, rfl, hcolumn, htext⟩ := ih piece hpiece
      refine ⟨word ++ before, after, by simp only [List.append_assoc], ?_, htext⟩
      rw [hcolumn, List.length_append]
      omega

theorem ascend (h : Cuts column text pieces) :
    (pieces.map Piece.column).Pairwise (· < ·) := by
  induction h with
  | done | comment => exact .nil
  | blank _ _ ih => exact ih
  | comma hrest ih =>
    rw [List.map_cons, List.pairwise_cons]
    refine ⟨?_, ih⟩
    intro next hnext
    obtain ⟨piece, hpiece, rfl⟩ := List.mem_map.1 hnext
    exact hrest.column_le piece hpiece
  | @word column _ _ _ hword hrest ih =>
    rw [List.map_cons, List.pairwise_cons]
    refine ⟨?_, ih⟩
    intro next hnext
    obtain ⟨piece, hpiece, rfl⟩ := List.mem_map.1 hnext
    have hle := hrest.column_le piece hpiece
    have hpos := List.length_pos_iff.2 hword.ne_nil
    show column < piece.column
    omega

/-- The pieces stand before the comment. -/
theorem column_lt (h : Cuts column text pieces) :
    ∀ piece ∈ pieces, piece.column < column + (withoutComment text).length := by
  induction h with
  | done | comment => simp
  | @blank _ c _ _ hc _ ih =>
    intro piece hpiece
    have hne := Text.ne_comment_of_isBlank hc
    have hlt := ih piece hpiece
    rw [withoutComment, List.takeWhile_cons, if_pos (by simpa using hne), List.length_cons]
    rw [withoutComment] at hlt
    omega
  | comma _ ih =>
    intro piece hpiece
    rw [withoutComment, List.takeWhile_cons, if_pos (by decide), List.length_cons]
    rcases List.mem_cons.1 hpiece with rfl | hpiece
    · exact Nat.lt_add_of_pos_right (Nat.succ_pos _)
    · have hlt := ih piece hpiece
      rw [withoutComment] at hlt
      omega
  | @word column word _ _ hword _ ih =>
    intro piece hpiece
    have hcomment : ∀ c ∈ word, decide (c ≠ ';') = true :=
      fun c hc => decide_eq_true (hword.mem_ne c hc).2
    have hpos := List.length_pos_iff.2 hword.ne_nil
    rw [withoutComment, List.takeWhile_append_of_pos hcomment, List.length_append]
    rcases List.mem_cons.1 hpiece with rfl | hpiece
    · show column < column + (word.length + _)
      omega
    · have hlt := ih piece hpiece
      rw [withoutComment] at hlt
      omega

end Cuts

end Risc16
