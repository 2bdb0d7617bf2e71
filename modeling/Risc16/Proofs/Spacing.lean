import Risc16.Proofs.BadWord
import Risc16.Proofs.Relocation

/-!
# White space and comments mean nothing

White space can be put between two words, and a comment behind the last. What the line says stays:
the same tokens, or the same bad word after the same tokens. Only columns change, and only behind
the white space that was put in.

Results:
1. `Piece.cut_spread`: white space between words moves the pieces behind it.
2. `SourceLine.runPieces_carry`: pieces that are moved give the same tokens, at other places.
3. `SourceLine.spacing_is_free`: both about a raw line, for white space and for comments.
-/

namespace Risc16

/-! ## Columns further right -/

/-- The place of a character after `width` columns were put in behind the first `start` columns. -/
def Location.spread (start width : Nat) (l : Location) : Location :=
  if l.column ≤ start then l else { l with column := l.column + width }

namespace Piece

/-- The same piece, `width` columns further right. -/
def right (width : Nat) (piece : Piece) : Piece :=
  ⟨piece.column + width, piece.text⟩

/-- The piece after `width` columns were put in behind the first `start` columns. -/
def spread (start width : Nat) (piece : Piece) : Piece :=
  if piece.column ≤ start then piece else piece.right width

theorem spread_text (start width : Nat) (piece : Piece) :
    (piece.spread start width).text = piece.text := by
  unfold spread
  split <;> rfl

theorem place_spread (line line' : SourceLine) (hfile : line'.file = line.file)
    (hnumber : line'.number = line.number) (start width : Nat) (piece : Piece) :
    line'.place (piece.spread start width).column =
      (line.place piece.column).spread start width := by
  unfold spread Location.spread SourceLine.place
  by_cases hle : piece.column ≤ start
  · rw [if_pos hle, if_pos (Int.ofNat_le.2 hle), hfile, hnumber]
  · rw [if_neg hle, if_neg (fun h => hle (Int.ofNat_le.1 h)), hfile, hnumber]
    rfl

end Piece

theorem Cuts.right {column : Nat} {text : List Char} {pieces : List Piece} (width : Nat)
    (h : Cuts column text pieces) :
    Cuts (column + width) text (pieces.map (Piece.right width)) := by
  induction h with
  | done => exact .done
  | comment => exact .comment
  | @blank column _ _ _ hc _ ih =>
    rw [Nat.add_right_comm] at ih
    exact .blank hc ih
  | @comma column _ _ _ ih =>
    rw [Nat.add_right_comm] at ih
    exact .comma ih
  | @word column word _ _ hword _ ih =>
    rw [Nat.add_right_comm] at ih
    exact .word hword ih

/-- White space in front of a text makes no word longer. -/
theorem Text.Breaks.blank_append {gap rest : List Char} (h : Text.Breaks rest)
    (hgap : ∀ c ∈ gap, Text.isBlank c = true) : Text.Breaks (gap ++ rest) := by
  cases gap with
  | nil => exact h
  | cons c gap =>
    intro d hd
    cases hd
    exact .inl (hgap c List.mem_cons_self)

namespace Piece

theorem cut_right (column width : Nat) (text : List Char) :
    cut (column + width) text = (cut column text).map (right width) :=
  (cuts_iff.1 ((Cuts.of_cut column text).right width)).symm

variable {front gap rest : List Char}

theorem cut_blank_append (column : Nat) (hgap : ∀ c ∈ gap, Text.isBlank c = true) :
    cut column (gap ++ rest) = cut (column + gap.length) rest := by
  have hopens : Text.Opens gap := fun c hc => .inl (hgap c (List.mem_of_getLast? hc))
  rw [cut_append (fun c hc => Text.ne_comment_of_isBlank (hgap c hc)) (.inl hopens),
    cut_of_blank hgap, List.nil_append]

/-- White space between words moves the pieces behind it, and no others. -/
theorem cut_spread (hfront : ∀ c ∈ front, c ≠ ';')
    (hseam : Text.Opens front ∨ Text.Breaks rest) (hgap : ∀ c ∈ gap, Text.isBlank c = true) :
    cut 1 (front ++ gap ++ rest) =
      (cut 1 (front ++ rest)).map (spread front.length gap.length) := by
  have hseam' : Text.Opens front ∨ Text.Breaks (gap ++ rest) :=
    hseam.imp_right fun hbreaks => hbreaks.blank_append hgap
  have hkept : ∀ piece ∈ cut 1 front, spread front.length gap.length piece = piece := by
    intro piece hpiece
    have hlt := (Cuts.of_cut 1 front).column_lt piece hpiece
    have hle : (withoutComment front).length ≤ front.length := (List.takeWhile_sublist _).length_le
    exact if_pos (by omega)
  have hmoved : ∀ piece ∈ cut (1 + front.length) rest,
      spread front.length gap.length piece = piece.right gap.length := by
    intro piece hpiece
    have hle := (Cuts.of_cut (1 + front.length) rest).column_le piece hpiece
    exact if_neg (by omega)
  calc cut 1 (front ++ gap ++ rest)
      = cut 1 front ++ cut (1 + front.length) (gap ++ rest) := by
        rw [List.append_assoc, cut_append hfront hseam']
    _ = cut 1 front ++ (cut (1 + front.length) rest).map (right gap.length) := by
        rw [cut_blank_append _ hgap, cut_right]
    _ = (cut 1 (front ++ rest)).map (spread front.length gap.length) := by
        rw [cut_append hfront hseam, List.map_append, List.map_congr_left hkept,
          List.map_congr_left hmoved, List.map_id']

end Piece

/-! ## Tokens of one line on another -/

namespace SourceLine

/-- A token of another line as it stands on this one. `f` says where it stands, but the end of the
line is where this line ends. -/
def carryToken (line : SourceLine) (f : Location → Location) (token : Token) : Token :=
  if token.lexeme = .lineEnd then line.endToken else token.mapPlace f

/-- The bad word of another line as it stands on this one. -/
def carryFault (line : SourceLine) (f : Location → Location) (d : Diagnostic) : Diagnostic :=
  ⟨d.cause, d.location?.map f, some (String.ofList line.text)⟩

section

variable {line : SourceLine} {f : Location → Location}

theorem carryToken_lexeme (token : Token) : (line.carryToken f token).lexeme = token.lexeme := by
  unfold carryToken
  split
  · next hend => exact hend.symm
  · rfl

/-- The tokens before the end of a line are moved, each on its own. -/
theorem filter_carryToken (tokens : List Token) :
    (tokens.map (line.carryToken f)).filter (fun token => token.lexeme ≠ .lineEnd) =
      (tokens.filter fun token => token.lexeme ≠ .lineEnd).map (Token.mapPlace f) := by
  rw [List.filter_map]
  simp only [Function.comp_def, carryToken_lexeme]
  refine List.map_congr_left fun token htoken => ?_
  have hne : token.lexeme ≠ .lineEnd := of_decide_eq_true (List.mem_filter.1 htoken).2
  exact if_neg hne

theorem carryFault_id : line.carryFault id =
    fun d => { d with sourceLine? := some (String.ofList line.text) } := by
  funext d
  rw [carryFault, Option.map_id, id]

end

/-- Where the line end stays, a token that is not moved is the same token. -/
theorem carryToken_id {line line' : SourceLine} (hend : line'.endToken = line.endToken)
    {token : Token} (htoken : token ∈ line.run.tokens) : line'.carryToken id token = token := by
  unfold carryToken
  split
  · next hlexeme =>
    rcases piece_of_mem_runPieces htoken with heq | ⟨piece, _, leading, hclassify, _⟩
    · rw [hend, heq]
    · exact absurd (hlexeme ▸ hclassify) Piece.classify_ne_lineEnd
  · rfl

/-- Pieces that are moved give the same tokens where they were moved to, and the same bad word. -/
theorem runPieces_carry (line line' : SourceLine) {f : Location → Location} {move : Piece → Piece}
    (htext : ∀ piece, (move piece).text = piece.text)
    (hplace : ∀ piece, line'.place (move piece).column = f (line.place piece.column))
    (leading : Bool) (pieces : List Piece) :
    line'.runPieces leading (pieces.map move) =
      ⟨(line.runPieces leading pieces).tokens.map (line'.carryToken f),
        (line.runPieces leading pieces).fault?.map (line'.carryFault f)⟩ := by
  induction pieces generalizing leading with
  | nil => rfl
  | cons piece pieces ih =>
    have hclassify : (move piece).classify leading = piece.classify leading := by
      unfold Piece.classify
      rw [htext]
    rw [List.map_cons, runPieces, runPieces, hclassify]
    cases hpiece : piece.classify leading with
    | error fault =>
      simp only [badWord, diagnose, htext, hplace, carryFault, Option.map_some, List.map_nil]
    | ok lexeme =>
      have hne : lexeme ≠ .lineEnd := fun hend => Piece.classify_ne_lineEnd (hend ▸ hpiece)
      have htoken : line'.carryToken f ⟨lexeme, line.place piece.column⟩ =
          ⟨lexeme, line'.place (move piece).column⟩ := by
        rw [carryToken, if_neg hne, Token.mapPlace, hplace]
      simp only [ih, List.map_cons, htoken]

end SourceLine

/-! ## Comments -/

namespace SourceLine

/-- A comment does not move the end of the line. -/
theorem endToken_comment (file : String) (number : Int) {text : List Char}
    (hcomment : ∀ c ∈ text, c ≠ ';')
    (hlast : ∀ c, text.getLast? = some c → c ≠ '\r' ∧ c ≠ '\n') (comment : List Char) :
    (ofText file number (text ++ ';' :: comment)).endToken =
      (ofText file number text).endToken := by
  have hshort : ∀ rest, withoutComment (text ++ ';' :: rest) = withoutComment (text ++ []) := by
    intro rest
    rw [withoutComment_append hcomment, withoutComment_append hcomment]
    rfl
  have htext : Text.dropLineEnd (text ++ ';' :: comment) =
      text ++ ';' :: Text.dropLineEnd comment :=
    Text.dropEndWhile_append_cons (by decide) text comment
  unfold endToken ofText
  rw [htext, hshort, List.append_nil, Text.dropLineEnd_of_getLast? hlast]
  rfl

/-- White space and comments mean nothing. White space between two words, where no comment has
begun, leaves the tokens of the line what they are, and a bad word the same bad word. All that
stands behind it is moved right by its width, and all that stands before it stays. A comment behind
a line leaves all tokens at their places, the end of the line included. -/
theorem spacing_is_free (file : String) (number : Int) :
    (∀ front gap rest, (∀ c ∈ front, c ≠ ';') → Text.Opens front ∨ Text.Breaks rest →
      (∀ c ∈ gap, Text.isBlank c = true) →
      let joined := ofText file number (front ++ rest)
      let apart := ofText file number (front ++ gap ++ rest)
      let move := Location.spread front.length gap.length
      apart.run.tokens.map Token.lexeme = joined.run.tokens.map Token.lexeme ∧
      apart.run.tokens.filter (fun token => token.lexeme ≠ .lineEnd) =
        (joined.run.tokens.filter fun token => token.lexeme ≠ .lineEnd).map (Token.mapPlace move) ∧
      apart.run.fault? = joined.run.fault?.map fun d =>
        ⟨d.cause, d.location?.map move, some (String.ofList apart.text)⟩) ∧
    ∀ text comment, (∀ c ∈ text, c ≠ ';') →
      (∀ c, text.getLast? = some c → c ≠ '\r' ∧ c ≠ '\n') →
      let bare := ofText file number text
      let commented := ofText file number (text ++ ';' :: comment)
      commented.run.tokens = bare.run.tokens ∧
      commented.run.fault? = bare.run.fault?.map fun d =>
        { d with sourceLine? := some (String.ofList commented.text) } := by
  refine ⟨?_, ?_⟩
  · intro front gap rest hfront hseam hgap joined apart move
    have hrun : apart.run = ⟨joined.run.tokens.map (apart.carryToken move),
        joined.run.fault?.map (apart.carryFault move)⟩ := by
      rw [run_ofText, run_ofText, Piece.cut_spread hfront hseam hgap]
      exact runPieces_carry joined apart (Piece.spread_text _ _)
        (Piece.place_spread joined apart rfl rfl _ _) true _
    rw [hrun]
    refine ⟨?_, filter_carryToken _, rfl⟩
    rw [List.map_map]
    exact List.map_congr_left fun token _ => carryToken_lexeme token
  · intro text comment hcomment hlast bare commented
    have hend : commented.endToken = bare.endToken :=
      endToken_comment file number hcomment hlast comment
    have hcarry : commented.runPieces true ((Piece.cut 1 text).map id) =
        ⟨(bare.runPieces true (Piece.cut 1 text)).tokens.map (commented.carryToken id),
          (bare.runPieces true (Piece.cut 1 text)).fault?.map (commented.carryFault id)⟩ :=
      runPieces_carry bare commented (fun _ => rfl) (fun _ => rfl) true _
    rw [List.map_id, ← run_ofText file number text, carryFault_id,
      List.map_congr_left fun token => carryToken_id hend, List.map_id'] at hcarry
    rw [run_ofText, Piece.cut_comment hcomment, hcarry]
    exact ⟨rfl, rfl⟩

/-- A colon parts two words, so white space can stand behind it. The bad word further on is moved by
both columns, the declaration before it is not, and a comment behind the line moves nothing. -/
theorem spacing_is_free_after_colon :
    let front := ['b', ':']
    let gap := ['\t', ' ']
    let rest := "in,1x\r".toList
    let text := front ++ "in,1x".toList
    (∀ c ∈ front, c ≠ ';') ∧ Text.Opens front ∧ (∀ c ∈ gap, Text.isBlank c = true) ∧
      (ofText "a" 1 (front ++ rest)).run.fault? =
        some ⟨.word "1x" .integer, some ⟨"a", 1, 6⟩, some "b:in,1x"⟩ ∧
      (ofText "a" 1 (front ++ gap ++ rest)).run.fault? =
        some ⟨.word "1x" .integer, some ⟨"a", 1, 8⟩, some "b:\t in,1x"⟩ ∧
      (ofText "a" 1 (front ++ gap ++ rest)).run.tokens.filter
          (fun token => token.lexeme ≠ .lineEnd) =
        [⟨.labelDef "b", "a", 1, 1⟩, ⟨.mnemonic "in", "a", 1, 5⟩, ⟨.comma, "a", 1, 7⟩] ∧
      (ofText "a" 1 (text ++ ';' :: "2y;\r".toList)).run.fault? =
        some ⟨.word "1x" .integer, some ⟨"a", 1, 6⟩, some "b:in,1x;2y;"⟩ := by
  intro front gap rest text
  have hfront : ∀ c ∈ front, c ≠ ';' := by simp [front]
  have hopens : Text.Opens front := by simp [Text.Opens, front]
  have hgap : ∀ c ∈ gap, Text.isBlank c = true := List.all_eq_true.1 (by decide)
  have hjoined : (ofText "a" 1 (front ++ rest)).run.fault? =
      some ⟨.word "1x" .integer, some ⟨"a", 1, 6⟩, some "b:in,1x"⟩ := by decide +kernel
  have hbare : (ofText "a" 1 text).run.fault? =
      some ⟨.word "1x" .integer, some ⟨"a", 1, 6⟩, some "b:in,1x"⟩ := by decide +kernel
  have htext : ∀ c ∈ text, c ≠ ';' := by simp [text, front]
  have hlast : ∀ c, text.getLast? = some c → c ≠ '\r' ∧ c ≠ '\n' := by simp [text, front]
  obtain ⟨hspread, hcomment⟩ := spacing_is_free "a" 1
  obtain ⟨_, htokens, hfault⟩ := hspread front gap rest hfront (.inl hopens) hgap
  obtain ⟨_, hcommented⟩ := hcomment text "2y;\r".toList htext hlast
  refine ⟨hfront, hopens, hgap, hjoined, ?_, ?_, ?_⟩
  · rw [hfault, hjoined]
    decide +kernel
  · rw [htokens]
    decide +kernel
  · rw [hcommented, hbare]
    decide +kernel

end SourceLine

end Risc16
