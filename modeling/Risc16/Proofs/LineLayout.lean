import Mathlib.Data.List.DropRight
import Risc16.Proofs.Acceptance
import Risc16.Proofs.Spelling

/-!
# The layout of a line

Nothing of a line gets lost when it is cut into tokens. Each token covers a slice of the line at its
column, the slices follow one another with nothing but white space between them, and what comes
after the last is white space and a comment. A slice decides which token it is, but for names, where
the tokens before it decide whether it is the instruction of the line.

Results:
1. `Piece.classify_ok`: a slice is the token that it spells, and there is no other.
2. `SourceLine.exists_layout`: a line without a bad word is laid out in slices.
3. `SourceLine.countP_isMnemonic_le`: a line names at most one instruction.
4. `SourceLine.tokens_lossless`: all of that about a raw line, with the line end that it had.
-/

namespace Risc16

/-! ## Layouts -/

/-- A text spells a token: it is a comma, or a word that spells it. -/
def Piece.Spells (leading : Bool) (text : List Char) (lexeme : Lexeme) : Prop :=
  text = [','] ∧ lexeme = .comma ∨ Word.Spells leading text lexeme

/-- A token of a line with the text that it covers and the white space after that. -/
structure Stretch where
  token : Token
  text : List Char
  gap : List Char

/-- The part of the line that a stretch takes up. -/
def Stretch.source (s : Stretch) : List Char :=
  s.text ++ s.gap

/-- The token of a stretch is what its text says, at a place and in front of a rest of the line.

* `place`: the token stands where its text starts.
* `spells`: the text spells this token and no other.
* `full`: the text is a comma, or a word that goes as far as it can. -/
structure Stretch.StandsAt (s : Stretch) (place : Location) (leading : Bool) (rest : List Char) :
    Prop where
  place : s.token.location = place
  spells : ∀ lexeme, Piece.Spells leading s.text lexeme ↔ lexeme = s.token.lexeme
  full : s.text = [','] ∨ FullWord s.text rest

/-- A text taken apart: white space, then stretches, then a comment. -/
structure Layout where
  indent : List Char
  stretches : List Stretch
  comment : List Char

namespace Layout

/-- The text before the comment. -/
def body (l : Layout) : List Char :=
  l.indent ++ l.stretches.flatMap Stretch.source

/-- The whole text. -/
def text (l : Layout) : List Char :=
  l.body ++ l.comment

/-- `l.Shows line column leading tokens`: on a line, a text that is laid out from `column` on has
these tokens. `leading` says whether the name of the instruction may still come.

* `tokens_eq`: there is a token for each stretch, and the end of the line where the comment starts.
* `indent_blank`, `gap_blank`, `comment_start`: what no token covers is white space and a comment.
* `stretch`: each token stands for its text. A name is the instruction if only label declarations
  and commas come before it. -/
structure Shows (l : Layout) (line : SourceLine) (column : Nat) (leading : Bool)
    (tokens : List Token) : Prop where
  tokens_eq : tokens =
    l.stretches.map Stretch.token ++ [⟨.lineEnd, line.place (column + l.body.length)⟩]
  indent_blank : ∀ c ∈ l.indent, Text.isBlank c = true
  gap_blank : ∀ s ∈ l.stretches, ∀ c ∈ s.gap, Text.isBlank c = true
  comment_start : l.comment = [] ∨ ∃ rest, l.comment = ';' :: rest
  stretch : ∀ before s after, l.stretches = before ++ s :: after →
    s.StandsAt (line.place (column + l.indent.length + (before.flatMap Stretch.source).length))
      (leading && before.all fun b => b.token.lexeme.keepsLeading)
      (s.gap ++ after.flatMap Stretch.source ++ l.comment)

end Layout

/-! ## Slices and tokens -/

/-- A slice is the token that it spells, and there is no other. -/
theorem Piece.classify_ok {leading : Bool} {piece : Piece} {lexeme : Lexeme} :
    piece.classify leading = .ok lexeme ↔ Piece.Spells leading piece.text lexeme := by
  refine ⟨spells_of_classify, ?_⟩
  rintro (⟨hcomma, rfl⟩ | hspells)
  · rw [classify, if_pos hcomma]
  · have hclassify := Word.classify_ok.2 hspells
    have hne : piece.text ≠ [','] := by
      intro hcomma
      rw [hcomma] at hclassify
      cases hclassify
    rw [classify, if_neg hne, hclassify]

theorem Stretch.standsAt_of_classify {leading : Bool} {piece : Piece} {lexeme : Lexeme}
    {place : Location} {gap rest : List Char} (h : piece.classify leading = .ok lexeme)
    (hfull : piece.text = [','] ∨ FullWord piece.text rest) :
    Stretch.StandsAt ⟨⟨lexeme, place⟩, piece.text, gap⟩ place leading rest where
  place := rfl
  spells other := by
    rw [← Piece.classify_ok, h, Except.ok.injEq, eq_comm]
  full := hfull

namespace Layout.Shows

variable {l : Layout} {line : SourceLine} {column : Nat} {leading : Bool} {tokens : List Token}

/-- White space in front of a layout makes its indent longer. -/
theorem indented {c : Char} (hc : Text.isBlank c = true)
    (h : l.Shows line (column + 1) leading tokens) :
    Shows ⟨c :: l.indent, l.stretches, l.comment⟩ line column leading tokens where
  tokens_eq := by
    rw [h.tokens_eq]
    simp only [body, List.cons_append, List.length_cons, Nat.add_assoc, Nat.add_comm 1]
  indent_blank d hd := by
    rcases List.mem_cons.1 hd with rfl | hd
    · exact hc
    · exact h.indent_blank d hd
  gap_blank := h.gap_blank
  comment_start := h.comment_start
  stretch before s after hsplit := by
    have hstands := h.stretch before s after hsplit
    rwa [Nat.add_assoc column, Nat.add_comm 1] at hstands

/-- A token in front of a layout takes the indent as the white space after it. -/
theorem cons {lexeme : Lexeme} {text : List Char}
    (hstands : Stretch.StandsAt ⟨⟨lexeme, line.place column⟩, text, l.indent⟩ (line.place column)
      leading l.text)
    (h : l.Shows line (column + text.length) (leading && lexeme.keepsLeading) tokens) :
    Shows ⟨[], ⟨⟨lexeme, line.place column⟩, text, l.indent⟩ :: l.stretches, l.comment⟩ line column
      leading (⟨lexeme, line.place column⟩ :: tokens) where
  tokens_eq := by
    rw [h.tokens_eq]
    simp only [body, Stretch.source, List.map_cons, List.cons_append, List.nil_append,
      List.flatMap_cons, List.length_append, Nat.add_assoc]
  indent_blank := by simp
  gap_blank s hs := by
    rcases List.mem_cons.1 hs with rfl | hs
    · exact h.indent_blank
    · exact h.gap_blank s hs
  comment_start := h.comment_start
  stretch before s after hsplit := by
    cases before with
    | nil =>
      cases hsplit
      rw [List.all_nil, Bool.and_true]
      exact hstands
    | cons first before =>
      obtain ⟨rfl, hrest⟩ := List.cons.inj hsplit
      have hlater := h.stretch before s after hrest
      simp only [Stretch.source, List.flatMap_cons, List.length_append, List.length_nil,
        Nat.add_zero, List.all_cons, ← Bool.and_assoc, ← Nat.add_assoc] at hlater ⊢
      exact hlater

end Layout.Shows

theorem withoutComment_append {before after : List Char} (h : ∀ c ∈ before, c ≠ ';') :
    withoutComment (before ++ after) = before ++ withoutComment after :=
  List.takeWhile_append_of_pos fun c hc => decide_eq_true (h c hc)

namespace SourceLine

variable {line : SourceLine} {leading : Bool}

theorem runPieces_lexed {piece : Piece} {pieces : List Piece}
    (h : (line.runPieces leading (piece :: pieces)).fault? = none) :
    ∃ lexeme, piece.classify leading = .ok lexeme ∧
      (line.runPieces (leading && lexeme.keepsLeading) pieces).fault? = none ∧
      (line.runPieces leading (piece :: pieces)).tokens =
        ⟨lexeme, line.place piece.column⟩ ::
          (line.runPieces (leading && lexeme.keepsLeading) pieces).tokens := by
  cases hclassify : piece.classify leading with
  | error fault =>
    rw [runPieces, hclassify] at h
    cases h
  | ok lexeme =>
    rw [runPieces, hclassify] at h
    refine ⟨lexeme, rfl, h, ?_⟩
    rw [runPieces, hclassify]

theorem endToken_eq_append {column : Nat} {before after : List Char}
    (h : line.endToken =
      ⟨.lineEnd, line.place (column + (withoutComment (before ++ after)).length)⟩)
    (hbefore : ∀ c ∈ before, c ≠ ';') :
    line.endToken =
      ⟨.lineEnd, line.place (column + before.length + (withoutComment after).length)⟩ := by
  rwa [withoutComment_append hbefore, List.length_append, ← Nat.add_assoc] at h

/-- The step over a piece. -/
theorem exists_layout_cons {column : Nat} {slice rest : List Char} {pieces : List Piece}
    (hfull : slice = [','] ∨ FullWord slice rest)
    (hlexed : (line.runPieces leading (⟨column, slice⟩ :: pieces)).fault? = none)
    (hrest : ∀ {leading'}, (line.runPieces leading' pieces).fault? = none →
      ∃ l : Layout, l.text = rest ∧
        l.Shows line (column + slice.length) leading' (line.runPieces leading' pieces).tokens) :
    ∃ l : Layout, l.text = slice ++ rest ∧
      l.Shows line column leading (line.runPieces leading (⟨column, slice⟩ :: pieces)).tokens := by
  obtain ⟨lexeme, hclassify, hlater, htokens⟩ := runPieces_lexed hlexed
  obtain ⟨l, rfl, hshows⟩ := hrest hlater
  rw [htokens]
  refine ⟨_, ?_, hshows.cons (Stretch.standsAt_of_classify hclassify hfull)⟩
  simp only [Layout.text, Layout.body, Stretch.source, List.nil_append, List.flatMap_cons,
    List.append_assoc]

/-- Pieces without a bad word lay their text out. The end of the line has its place from the whole
line, so `hend` says that it is also the end of this text. -/
theorem exists_layout {column : Nat} {text : List Char} {pieces : List Piece}
    (hcuts : Cuts column text pieces)
    (hend : line.endToken = ⟨.lineEnd, line.place (column + (withoutComment text).length)⟩)
    (hlexed : (line.runPieces leading pieces).fault? = none) :
    ∃ l : Layout, l.text = text ∧
      l.Shows line column leading (line.runPieces leading pieces).tokens := by
  induction hcuts generalizing leading with
  | done =>
    refine ⟨⟨[], [], []⟩, rfl, ⟨?_, by simp, by simp, .inl rfl, by simp⟩⟩
    rw [runPieces, hend]
    rfl
  | @comment column rest =>
    refine ⟨⟨[], [], ';' :: rest⟩, rfl, ⟨?_, by simp, by simp, .inr ⟨rest, rfl⟩, by simp⟩⟩
    rw [runPieces, hend]
    rfl
  | @blank column c rest pieces hc _ ih =>
    have hne : ∀ d ∈ [c], d ≠ ';' := by simpa using Text.ne_comment_of_isBlank hc
    obtain ⟨l, rfl, hshows⟩ := ih (endToken_eq_append hend hne) hlexed
    exact ⟨_, rfl, hshows.indented hc⟩
  | @comma column rest pieces _ ih =>
    have hne : ∀ d ∈ [','], d ≠ ';' := by
      intro d hd
      rw [List.mem_singleton.1 hd]
      decide
    exact exists_layout_cons (.inl rfl) hlexed fun hlater =>
      ih (endToken_eq_append hend hne) hlater
  | @word column word rest pieces hword _ ih =>
    have hne : ∀ d ∈ word, d ≠ ';' := fun d hd => (hword.mem_ne d hd).2
    exact exists_layout_cons (.inr hword) hlexed fun hlater =>
      ih (endToken_eq_append hend hne) hlater

/-! ## Names of instructions -/

theorem isMnemonic_of_classify {piece : Piece} {lexeme : Lexeme}
    (h : piece.classify leading = .ok lexeme) (hmnemonic : lexeme.isMnemonic = true) :
    leading = true ∧ lexeme.keepsLeading = false := by
  cases lexeme with
  | mnemonic name =>
    rcases Piece.spells_of_classify h with ⟨_, hcomma⟩ | hspells
    · cases hcomma
    · generalize piece.text = word at hspells
      cases hspells with
      | mnemonic hleading _ _ => exact ⟨hleading, rfl⟩
  | _ => cases hmnemonic

/-- After the name of the instruction, and after an operand, none can come. -/
theorem countP_isMnemonic_runPieces_le (leading : Bool) (pieces : List Piece) :
    (line.runPieces leading pieces).tokens.countP (fun token => token.lexeme.isMnemonic) ≤
      leading.toNat := by
  induction pieces generalizing leading with
  | nil => exact Nat.zero_le _
  | cons piece pieces ih =>
    unfold runPieces
    split
    · exact Nat.zero_le _
    · next lexeme hlexeme =>
      have hrest := ih (leading && lexeme.keepsLeading)
      rw [List.countP_cons]
      split
      · next hmnemonic =>
        obtain ⟨rfl, hkeeps⟩ := isMnemonic_of_classify hlexeme hmnemonic
        rw [hkeeps] at hrest ⊢
        exact Nat.succ_le_succ hrest
      · cases leading with
        | false => exact hrest
        | true => exact Nat.le_trans hrest (Bool.toNat_le _)

/-- A line names at most one instruction. -/
theorem countP_isMnemonic_le (line : SourceLine) :
    line.run.tokens.countP (fun token => token.lexeme.isMnemonic) ≤ 1 :=
  countP_isMnemonic_runPieces_le _ _

end SourceLine

/-! ## Raw lines -/

/-- A raw line is its text and a line end, and the text does not end like one. -/
theorem Text.exists_dropLineEnd (raw : List Char) :
    ∃ ending, raw = dropLineEnd raw ++ ending ∧ (∀ c ∈ ending, c = '\r' ∨ c = '\n') ∧
      ∀ c, (dropLineEnd raw).getLast? = some c → c ≠ '\r' ∧ c ≠ '\n' := by
  let isEnd : Char → Bool := fun c => c == '\r' || c == '\n'
  have hdrop : dropLineEnd raw = raw.rdropWhile isEnd := rfl
  have hiff : ∀ c, isEnd c = true ↔ c = '\r' ∨ c = '\n' := by simp [isEnd]
  refine ⟨raw.rtakeWhile isEnd, ?_, ?_, ?_⟩
  · rw [hdrop, List.rdropWhile_append_rtakeWhile]
  · intro c hc
    exact (hiff c).1 (List.mem_rtakeWhile_imp hc)
  · intro c hlast
    rw [hdrop] at hlast
    obtain ⟨init, hinit⟩ := List.getLast?_eq_some_iff.1 hlast
    have hne : raw.rdropWhile isEnd ≠ [] := by simp [hinit]
    have hstays := List.rdropWhile_last_not isEnd raw hne
    simp only [hinit, List.getLast_concat, hiff, not_or] at hstays
    exact hstays

namespace SourceLine

/-- Cutting a line into tokens is lossless. For a raw line without a bad word, the tokens stand at
ascending columns, the end of the line is the last of them and no other, and at most one is the name
of an instruction. The line is white space, a slice and white space for each token, a comment, and
the line end; each slice stands at the column of its token, spells that token alone, and is a comma
or a word that goes as far as it can. -/
theorem tokens_lossless {file : String} {number : Int} {raw : List Char} {tokens : List Token}
    (h : (SourceLine.ofText file number raw).tokens = .ok tokens) :
    (tokens.map fun token => token.location.column).Pairwise (· < ·) ∧
    EndsLine tokens ∧
    tokens.countP (fun token => token.lexeme.isMnemonic) ≤ 1 ∧
    ∃ (l : Layout) (ending : List Char),
      raw = l.text ++ ending ∧ (∀ c ∈ ending, c = '\r' ∨ c = '\n') ∧
      (∀ c, l.text.getLast? = some c → c ≠ '\r' ∧ c ≠ '\n') ∧
      l.Shows (SourceLine.ofText file number raw) 1 true tokens := by
  obtain ⟨hlexed, rfl⟩ := tokens_ok.1 h
  let line := SourceLine.ofText file number raw
  obtain ⟨ending, hraw, hending, hlast⟩ := Text.exists_dropLineEnd raw
  have hend : line.endToken = ⟨.lineEnd, line.place (1 + (withoutComment line.text).length)⟩ := by
    rw [endToken, Nat.add_comm]
  obtain ⟨l, htext, hshows⟩ := exists_layout (Cuts.of_cut 1 line.text) hend hlexed
  have hsame : l.text = Text.dropLineEnd raw := htext
  exact ⟨run_ascend line, run_endsLine hlexed, countP_isMnemonic_le line, l, ending,
    hsame ▸ hraw, hending, hsame ▸ hlast, hshows⟩

/-- After a label and a comma the name of the instruction can still come, and the comment ends the
line before its carriage return. -/
theorem tokens_lossless_input_line :
    ∃ tokens, (SourceLine.ofText "a" 1 "b:, in r07,-3;x\r".toList).tokens = .ok tokens ∧
      tokens.map Token.lexeme = [.labelDef "b", .comma, .mnemonic "in", .register 7, .comma,
        .immediate (-3), .lineEnd] ∧
      ∃ (l : Layout) (ending : List Char), "b:, in r07,-3;x\r".toList = l.text ++ ending ∧
        l.Shows (SourceLine.ofText "a" 1 "b:, in r07,-3;x\r".toList) 1 true tokens := by
  have hrun : ((SourceLine.ofText "a" 1 "b:, in r07,-3;x\r".toList).tokens.map
      fun tokens => tokens.map Token.lexeme) = .ok [.labelDef "b", .comma, .mnemonic "in",
        .register 7, .comma, .immediate (-3), .lineEnd] := by decide +kernel
  obtain ⟨tokens, htokens, hlexemes⟩ := Outcome.map_ok.1 hrun
  obtain ⟨_, _, _, l, ending, hraw, _, _, hshows⟩ := tokens_lossless htokens
  exact ⟨tokens, htokens, hlexemes, l, ending, hraw, hshows⟩

end SourceLine

end Risc16
