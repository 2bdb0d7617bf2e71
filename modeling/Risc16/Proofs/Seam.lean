import Risc16.Proofs.LineLayout

/-!
# Seams of a line

A line can be parted between its words. The pieces of the two parts are then the pieces of the line,
so that cutting is compositional at every seam. White space at the end of a line and the comment
give no pieces.

Results:
1. `Piece.cut_append`: the pieces of a line are those of its parts.
2. `Piece.cut_comment`, `Piece.cut_dropLineEnd`: neither a comment nor a line end has pieces.
3. `wordAt_iff`: the pieces that are no commas are the words of the line.
4. `Piece.cut_take`: the pieces before a word are those of the line that ends there.
-/

namespace Risc16

/-! ## Parts of a line -/

/-- A word can start after this text: it is empty, or ends with white space, a comma or a colon. -/
def Text.Opens (front : List Char) : Prop :=
  ∀ c, front.getLast? = some c → isBlank c = true ∨ c = ',' ∨ c = ':'

/-- `WordAt start text column word`: in a text that starts at the column `start`, a word stands at a
column before the comment. It starts where a word can start, and goes as far as it can. -/
def WordAt (start : Nat) (text : List Char) (column : Nat) (word : List Char) : Prop :=
  ∃ front rest, text = front ++ (word ++ rest) ∧ column = start + front.length ∧
    (∀ c ∈ front, c ≠ ';') ∧ Text.Opens front ∧ FullWord word rest

namespace Text

theorem opens_nil : Opens [] := by
  simp [Opens]

theorem opens_append {front back : List Char} (hback : Opens back)
    (hfront : back = [] → Opens front) : Opens (front ++ back) := by
  intro c hc
  by_cases hnil : back = []
  · subst hnil
    exact hfront rfl c (by simpa using hc)
  · rw [List.getLast?_append_of_ne_nil _ hnil] at hc
    exact hback c hc

theorem Opens.of_cons {c : Char} {front : List Char} (h : Opens (c :: front)) : Opens front := by
  intro d hd
  refine h d ?_
  rw [List.getLast?_cons, hd]
  rfl

theorem not_isPlain_of_opens {c : Char} (h : Opens [c]) : isPlain c = false := by
  rw [← Bool.not_eq_true, isPlain_iff]
  rintro ⟨hblank, _, hcomma, hcolon⟩
  rcases h c rfl with h | h | h
  · rw [hblank] at h
    cases h
  · exact hcomma h
  · exact hcolon h

theorem breaks_of_blank {text : List Char} (h : ∀ c ∈ text, isBlank c = true) : Breaks text :=
  fun c hc => .inl (h c (List.mem_of_mem_head? hc))

end Text

namespace FullWord

variable {word rest : List Char}

/-- A word ends with a colon, or where the text breaks. -/
theorem opens_or_breaks (h : FullWord word rest) : Text.Opens word ∨ Text.Breaks rest := by
  induction h with
  | colon =>
    refine .inl ?_
    intro c hc
    cases hc
    exact .inr (.inr rfl)
  | last _ hbreaks => exact .inr hbreaks
  | @cons c word rest _ hword ih =>
    refine ih.imp ?_ id
    intro hopens
    show Text.Opens ([c] ++ word)
    exact Text.opens_append hopens fun hnil => absurd hnil hword.ne_nil

/-- No text breaks at the start of a word. -/
theorem not_breaks (h : FullWord word rest) : ¬ Text.Breaks (word ++ rest) := by
  intro hbreaks
  have hpiece := (Cuts.of_cut 1 (word ++ rest)).comma_of_breaks hbreaks ⟨1, word⟩
    (by rw [Piece.cut_word h]; exact List.mem_cons_self) rfl
  exact h.ne_comma hpiece

end FullWord

/-! ## Cutting the parts -/

namespace Piece

variable {column : Nat} {front rest : List Char}

theorem attach_append {c : Char} {pieces more : List Piece} (h : pieces ≠ []) :
    attach column c (pieces ++ more) = attach column c pieces ++ more := by
  obtain ⟨piece, pieces, rfl⟩ := List.exists_cons_of_ne_nil h
  rw [List.cons_append, attach, attach]
  split <;> rfl

/-- The pieces of a line are those of its two parts, where the seam is not inside a word. -/
theorem cut_append (hcomment : ∀ c ∈ front, c ≠ ';') (hseam : Text.Opens front ∨ Text.Breaks rest) :
    cut column (front ++ rest) = cut column front ++ cut (column + front.length) rest := by
  induction front generalizing column with
  | nil => rfl
  | cons c front ih =>
    obtain ⟨hc, hfront⟩ := List.forall_mem_cons.1 hcomment
    have htail := @ih (column + 1) hfront (hseam.imp_left Text.Opens.of_cons)
    have hlength : column + (c :: front).length = column + 1 + front.length := by
      rw [List.length_cons]
      omega
    rw [hlength, List.cons_append]
    by_cases hblank : Text.isBlank c = true
    · rw [cut_blank hblank, cut_blank hblank, htail]
    by_cases hcomma : c = ','
    · rw [hcomma, cut_comma, cut_comma, htail, List.cons_append]
    by_cases hcolon : c = ':'
    · rw [hcolon, cut_colon, cut_colon, htail, List.cons_append]
    have hplain : Text.isPlain c = true :=
      Text.isPlain_iff.2 ⟨by simpa using hblank, hc, hcomma, hcolon⟩
    rw [cut_plain hplain, cut_plain hplain, htail]
    by_cases hnil : cut (column + 1) front = []
    · rw [hnil, List.nil_append]
      -- The character joins nothing of the other part, which breaks or starts further on.
      refine attach_alone ?_
      intro piece hpiece hcolumn
      have hcuts := Cuts.of_cut (column + 1 + front.length) rest
      cases front with
      | nil =>
        refine hcuts.comma_of_breaks (hseam.resolve_left fun hopens => ?_) piece hpiece hcolumn
        rw [Text.not_isPlain_of_opens hopens] at hplain
        cases hplain
      | cons d front =>
        have hle := hcuts.column_le piece hpiece
        rw [List.length_cons] at hle
        omega
    · exact attach_append hnil

theorem cut_of_blank (h : ∀ c ∈ rest, Text.isBlank c = true) : cut column rest = [] := by
  induction rest generalizing column with
  | nil => rfl
  | cons c rest ih =>
    obtain ⟨hc, hrest⟩ := List.forall_mem_cons.1 h
    rw [cut_blank hc, ih hrest]

/-- A comment has no pieces. -/
theorem cut_comment (hfront : ∀ c ∈ front, c ≠ ';') (comment : List Char) :
    cut column (front ++ ';' :: comment) = cut column front := by
  rw [cut_append hfront (.inr (by simp [Text.Breaks])), cut, if_pos rfl, List.append_nil]

/-- A line end has no pieces. -/
theorem cut_dropLineEnd (raw : List Char) : cut column (Text.dropLineEnd raw) = cut column raw := by
  obtain ⟨ending, hraw, hending, _⟩ := Text.exists_dropLineEnd raw
  generalize Text.dropLineEnd raw = text at hraw
  subst hraw
  by_cases hcomment : ';' ∈ text
  · obtain ⟨front, comment, rfl, hfront⟩ := List.eq_append_cons_of_mem hcomment
    have hne : ∀ c ∈ front, c ≠ ';' := fun c hc heq => hfront (heq ▸ hc)
    rw [List.append_assoc, List.cons_append, cut_comment hne, cut_comment hne]
  · have hblank : ∀ c ∈ ending, Text.isBlank c = true := by
      intro c hc
      rcases hending c hc with rfl | rfl <;> decide
    rw [cut_append (fun c hc heq => hcomment (heq ▸ hc)) (.inr (Text.breaks_of_blank hblank)),
      cut_of_blank hblank, List.append_nil]

end Piece

/-! ## Words of a line -/

/-- The piece of a word, between the pieces before it and after it. -/
theorem Piece.cut_around_word (column : Nat) {front word rest : List Char}
    (hfront : ∀ c ∈ front, c ≠ ';') (hopens : Text.Opens front) (hword : FullWord word rest) :
    cut column (front ++ (word ++ rest)) =
      cut column front ++ ⟨column + front.length, word⟩ ::
        cut (column + front.length + word.length) rest := by
  rw [cut_append hfront (.inl hopens), cut_word hword]

/-- A word of a text is a word of the line around it. A slice in front has to end where a word can
start, unless no word starts the text. -/
theorem WordAt.append {start column : Nat} {slice text word : List Char}
    (h : WordAt (start + slice.length) text column word) (hslice : ∀ c ∈ slice, c ≠ ';')
    (hopens : ¬ Text.Breaks text → Text.Opens slice) :
    WordAt start (slice ++ text) column word := by
  obtain ⟨front, rest, rfl, rfl, hfront, hfrontOpens, hword⟩ := h
  refine ⟨slice ++ front, rest, by rw [List.append_assoc], ?_, ?_, ?_, hword⟩
  · rw [List.length_append, Nat.add_assoc]
  · exact List.forall_mem_append.2 ⟨hslice, hfront⟩
  · refine Text.opens_append hfrontOpens ?_
    rintro rfl
    exact hopens hword.not_breaks

/-- A piece that is no comma is a word at its column. -/
theorem Cuts.wordAt {column : Nat} {text : List Char} {pieces : List Piece}
    (h : Cuts column text pieces) :
    ∀ piece ∈ pieces, piece.text ≠ [','] → WordAt column text piece.column piece.text := by
  induction h with
  | done | comment => simp
  | @blank column c rest _ hc _ ih =>
    intro piece hpiece hne
    show WordAt column ([c] ++ rest) piece.column piece.text
    refine (ih piece hpiece hne).append ?_ fun _ => by simp [Text.Opens, hc]
    simpa using Text.ne_comment_of_isBlank hc
  | @comma column rest _ _ ih =>
    intro piece hpiece hne
    rcases List.mem_cons.1 hpiece with rfl | hpiece
    · exact absurd rfl hne
    · show WordAt column ([','] ++ rest) piece.column piece.text
      exact (ih piece hpiece hne).append (by simp) fun _ => by simp [Text.Opens]
  | word hword _ ih =>
    intro piece hpiece hne
    rcases List.mem_cons.1 hpiece with rfl | hpiece
    · exact ⟨[], _, rfl, rfl, by simp, Text.opens_nil, hword⟩
    · refine (ih piece hpiece hne).append (fun c hc => (hword.mem_ne c hc).2) ?_
      exact hword.opens_or_breaks.resolve_right

/-- The words of a text are its pieces but for the commas. -/
theorem wordAt_iff {start column : Nat} {text word : List Char} :
    WordAt start text column word ↔ ⟨column, word⟩ ∈ Piece.cut start text ∧ word ≠ [','] := by
  constructor
  · rintro ⟨front, rest, rfl, rfl, hfront, hopens, hword⟩
    rw [Piece.cut_around_word start hfront hopens hword]
    exact ⟨by simp, hword.ne_comma⟩
  · rintro ⟨hpiece, hcomma⟩
    exact (Cuts.of_cut start text).wordAt ⟨column, word⟩ hpiece hcomma

/-- A line without white space and marks is one word. -/
theorem wordAt_of_plain {start column : Nat} {text word : List Char} (hne : text ≠ [])
    (hplain : ∀ c ∈ text, Text.isPlain c = true) :
    WordAt start text column word ↔ column = start ∧ word = text := by
  have hword : FullWord text [] := .of_plain hne hplain (by simp [Text.Breaks])
  have hcut : Piece.cut start (text ++ []) = [⟨start, text⟩] := Piece.cut_word hword
  rw [List.append_nil] at hcut
  rw [wordAt_iff, hcut, List.mem_singleton, Piece.mk.injEq, and_iff_left_iff_imp]
  rintro ⟨_, rfl⟩
  exact hword.ne_comma

theorem Piece.nodup_cut (column : Nat) (text : List Char) : (cut column text).Nodup :=
  .of_map Piece.column ((Cuts.of_cut column text).ascend.imp Nat.ne_of_lt)

/-- The pieces before a word are those of the text that ends where the word begins. -/
theorem Piece.cut_take {start : Nat} {text : List Char} {before after : List Piece} {piece : Piece}
    (hsplit : cut start text = before ++ piece :: after) (hne : piece.text ≠ [',']) :
    cut start (text.take (piece.column - start)) = before := by
  have hmem : piece ∈ cut start text := by simp [hsplit]
  obtain ⟨front, rest, rfl, hcolumn, hfront, hopens, hword⟩ :=
    (Cuts.of_cut start text).wordAt piece hmem hne
  have hnodup := nodup_cut start (front ++ (piece.text ++ rest))
  rw [hsplit, List.nodup_middle, List.nodup_cons, List.mem_append, not_or] at hnodup
  -- The piece occurs once, so there is one way to part the pieces at it.
  have hparts := cut_around_word start hfront hopens hword
  rw [hsplit, ← hcolumn, List.append_cons_inj_of_notMem hnodup.1.1 hnodup.1.2] at hparts
  rw [hparts.1, hcolumn, Nat.add_sub_cancel_left, List.take_left]

end Risc16
