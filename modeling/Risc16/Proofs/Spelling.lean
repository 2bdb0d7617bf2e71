import Risc16.Proofs.Cutting
import Risc16.Proofs.Grammar

/-!
# Words and the tokens that they spell

Which words spell which token, said without the order in which the reader of words tries them, and
which piece of a line stands behind each token of it.

Results:
1. `Word.classify_ok`: a word is the token that it spells.
2. `Word.classify_of_too_long`: a numeral with too many digits is a bad word.
3. `SourceLine.piece_of_mem_runPieces`, `SourceLine.piece_of_runPieces_fault`: the piece behind a
   token, and the piece behind a bad word.
4. `SourceLine.run_ascend`: the tokens of a line stand at ascending columns.
-/

namespace Risc16

/-! ## Words -/

namespace Word

/-- `Spells leading word lexeme`: a word spells a token. A name is the instruction of the line if
`leading` says that none has come before.

* `labelDef`: a name and a colon.
* `register`: an `r` and a numeral.
* `natural`, `positive`, `negative`: a numeral, with a sign or without.
* `mnemonic`, `label`: a name that does not look like a register. -/
inductive Spells (leading : Bool) : List Char → Lexeme → Prop
  | labelDef {name : List Char} :
      isName name = true → Spells leading (name ++ [':']) (.labelDef (String.ofList name))
  | register {digits : List Char} {n : Nat} :
      isNumeral digits = true → Text.readDigits? digits = some n →
      Spells leading ('r' :: digits) (.register n)
  | natural {digits : List Char} {n : Nat} :
      isNumeral digits = true → Text.readDigits? digits = some n →
      Spells leading digits (.immediate n)
  | positive {digits : List Char} {n : Nat} :
      isNumeral digits = true → Text.readDigits? digits = some n →
      Spells leading ('+' :: digits) (.immediate n)
  | negative {digits : List Char} {n : Nat} :
      isNumeral digits = true → Text.readDigits? digits = some n →
      Spells leading ('-' :: digits) (.immediate (-(n : Int)))
  | mnemonic {name : List Char} :
      leading = true → isName name = true → registerDigits? name = none →
      Spells leading name (.mnemonic (String.ofList name))
  | label {name : List Char} :
      leading = false → isName name = true → registerDigits? name = none →
      Spells leading name (.label (String.ofList name))

/-! ## Characters -/

theorem toNat_of_isAlpha {c : Char} (h : c.isAlpha = true) :
    65 ≤ c.toNat ∧ c.toNat ≤ 90 ∨ 97 ≤ c.toNat ∧ c.toNat ≤ 122 := by
  rcases Bool.or_eq_true_iff.1 h with h | h
  · have hrange : 'A'.val ≤ c.val ∧ c.val ≤ 'Z'.val := of_decide_eq_true h
    obtain ⟨hmin, hmax⟩ := hrange
    exact .inl ⟨UInt32.le_iff_toNat_le.1 hmin, UInt32.le_iff_toNat_le.1 hmax⟩
  · have hrange : decide ('a'.val ≤ c.val) && decide (c.val ≤ 'z'.val) := h
    obtain ⟨hmin, hmax⟩ := Bool.and_eq_true_iff.1 hrange
    have hmin := of_decide_eq_true hmin
    have hmax := of_decide_eq_true hmax
    exact .inr ⟨UInt32.le_iff_toNat_le.1 hmin, UInt32.le_iff_toNat_le.1 hmax⟩

theorem toNat_of_isNameChar {c : Char} (h : isNameChar c = true) :
    48 ≤ c.toNat ∧ c.toNat ≤ 57 ∨ 65 ≤ c.toNat ∧ c.toNat ≤ 90 ∨ c.toNat = 95 ∨
      97 ≤ c.toNat ∧ c.toNat ≤ 122 := by
  rcases Bool.or_eq_true_iff.1 h with h | h
  · rcases Bool.or_eq_true_iff.1 h with h | h
    · rcases toNat_of_isAlpha h with h | h
      · exact .inr (.inl h)
      · exact .inr (.inr (.inr h))
    · exact .inl (Char.isDigit_iff_toNat.1 h)
  · rw [beq_iff_eq.1 h]
    exact .inr (.inr (.inl rfl))

theorem isNameChar_of_isNameStart {c : Char} (h : isNameStart c = true) : isNameChar c = true := by
  rcases Bool.or_eq_true_iff.1 h with h | h
  · simp [isNameChar, Char.isAlphanum, h]
  · simp [isNameChar, h]

theorem isNameChar_of_isDigit {c : Char} (h : c.isDigit = true) : isNameChar c = true := by
  simp [isNameChar, Char.isAlphanum, h]

theorem isDigit_of_isNameStart {c : Char} (h : isNameStart c = true) : c.isDigit = false := by
  rw [Bool.eq_false_iff]
  intro hdigit
  have hrange := Char.isDigit_iff_toNat.1 hdigit
  have hmax : c.toNat ≤ 57 := hrange.2
  rcases Bool.or_eq_true_iff.1 h with h | h
  · have hletter := toNat_of_isAlpha h
    omega
  · rw [beq_iff_eq.1 h] at hdigit
    cases hdigit

/-- The characters of names go on words. -/
theorem isPlain_of_isNameChar {c : Char} (h : isNameChar c = true) : Text.isPlain c = true := by
  have hrange := toNat_of_isNameChar h
  rw [Text.isPlain_iff]
  refine ⟨?_, ?_, ?_, ?_⟩
  · simp only [Text.isBlank, Bool.or_eq_false_iff, Bool.and_eq_false_iff, decide_eq_false_iff_not,
      beq_eq_false_iff_ne]
    omega
  · rintro rfl
    revert h
    decide
  · rintro rfl
    revert h
    decide
  · rintro rfl
    revert h
    decide

variable {leading : Bool} {word digits : List Char}

theorem isNumeral_iff : isNumeral digits = true ↔ digits ≠ [] ∧ ∀ c ∈ digits, c.isDigit = true := by
  simp [isNumeral]

theorem registerDigits?_eq_some :
    registerDigits? word = some digits ↔ word = 'r' :: digits ∧ isNumeral digits = true := by
  constructor
  · intro h
    unfold registerDigits? at h
    split at h
    · split at h
      · next hnumeral =>
        cases h
        exact ⟨rfl, hnumeral⟩
      · cases h
    · cases h
  · rintro ⟨rfl, hnumeral⟩
    exact if_pos hnumeral

theorem integerDigits?_minus (h : isNumeral digits = true) :
    integerDigits? ('-' :: digits) = some (true, digits) :=
  if_pos h

theorem integerDigits?_plus (h : isNumeral digits = true) :
    integerDigits? ('+' :: digits) = some (false, digits) :=
  if_pos h

theorem integerDigits?_numeral (h : isNumeral digits = true) :
    integerDigits? digits = some (false, digits) := by
  have hdigits := (isNumeral_iff.1 h).2
  unfold integerDigits?
  split
  · exact absurd (hdigits '-' List.mem_cons_self) (by decide)
  · exact absurd (hdigits '+' List.mem_cons_self) (by decide)
  · exact if_pos h

/-- An integer is a numeral after a sign, or a numeral alone. -/
theorem integerDigits?_shape {negative : Bool} (h : integerDigits? word = some (negative, digits)) :
    isNumeral digits = true ∧ (word = '-' :: digits ∧ negative = true ∨
      word = '+' :: digits ∧ negative = false ∨ word = digits ∧ negative = false) := by
  unfold integerDigits? at h
  split at h
  · split at h
    · next hnumeral =>
      cases h
      exact ⟨hnumeral, .inl ⟨rfl, rfl⟩⟩
    · cases h
  · split at h
    · next hnumeral =>
      cases h
      exact ⟨hnumeral, .inr (.inl ⟨rfl, rfl⟩)⟩
    · cases h
  · split at h
    · next hnumeral =>
      cases h
      exact ⟨hnumeral, .inr (.inr ⟨rfl, rfl⟩)⟩
    · cases h

theorem integerDigits?_name (h : isName word = true) : integerDigits? word = none := by
  cases hdigits : integerDigits? word with
  | none => rfl
  | some shape =>
    -- A name starts with a letter, an integer with a sign or a digit.
    exfalso
    obtain ⟨hnumeral, hword⟩ := integerDigits?_shape hdigits
    obtain ⟨hne, hall⟩ := isNumeral_iff.1 hnumeral
    rcases hword with ⟨rfl, _⟩ | ⟨rfl, _⟩ | ⟨rfl, _⟩
    · simp [isName, isNameStart] at h
    · simp [isName, isNameStart] at h
    · obtain ⟨c, rest, hword⟩ := List.exists_cons_of_ne_nil hne
      rw [hword] at h hall
      have hdigit := hall c List.mem_cons_self
      rw [isDigit_of_isNameStart (Bool.and_eq_true_iff.1 h).1] at hdigit
      cases hdigit

/-! ## Classification -/

theorem classify_of_no_colon (h : ':' ∉ word) :
    classify leading word = classifyPlain leading word :=
  if_neg fun hlast => h (List.mem_of_getLast? hlast)

theorem colon_notMem_numeral (h : isNumeral digits = true) : ':' ∉ digits := by
  intro hmem
  exact absurd ((isNumeral_iff.1 h).2 ':' hmem) (by decide)

theorem isNameChar_of_isName (h : isName word = true) : ∀ c ∈ word, isNameChar c = true := by
  cases word with
  | nil => cases h
  | cons first rest =>
    obtain ⟨hfirst, hrest⟩ := Bool.and_eq_true_iff.1 h
    intro c hc
    rcases List.mem_cons.1 hc with rfl | hc
    · exact isNameChar_of_isNameStart hfirst
    · exact List.all_eq_true.1 hrest c hc

theorem colon_notMem_name (h : isName word = true) : ':' ∉ word := by
  intro hmem
  exact absurd (isNameChar_of_isName h ':' hmem) (by decide)

theorem spells_of_classifyPlain {lexeme : Lexeme} (h : classifyPlain leading word = .ok lexeme) :
    Spells leading word lexeme := by
  unfold classifyPlain at h
  split at h
  · next digits hregister =>
    obtain ⟨rfl, hnumeral⟩ := registerDigits?_eq_some.1 hregister
    split at h
    · next n hn =>
      cases h
      exact .register hnumeral hn
    · cases h
  · next hregister =>
    split at h
    · next negative digits hinteger =>
      obtain ⟨hnumeral, hword⟩ := integerDigits?_shape hinteger
      split at h
      · next n hn =>
        cases h
        rcases hword with ⟨rfl, rfl⟩ | ⟨rfl, rfl⟩ | ⟨rfl, rfl⟩
        · exact .negative hnumeral hn
        · exact .positive hnumeral hn
        · exact .natural hnumeral hn
      · cases h
    · split at h
      · next hname =>
        cases h
        cases hleading : leading with
        | true => exact .mnemonic rfl hname hregister
        | false => exact .label rfl hname hregister
      · split at h <;> cases h

theorem registerDigits?_of_not_r {c : Char} (h : c ≠ 'r') : registerDigits? (c :: word) = none := by
  cases hregister : registerDigits? (c :: word) with
  | none => rfl
  | some digits =>
    obtain ⟨hword, _⟩ := registerDigits?_eq_some.1 hregister
    exact absurd (List.cons.inj hword).1 h

theorem registerDigits?_numeral (h : isNumeral digits = true) : registerDigits? digits = none := by
  obtain ⟨hne, hall⟩ := isNumeral_iff.1 h
  obtain ⟨c, rest, rfl⟩ := List.exists_cons_of_ne_nil hne
  refine registerDigits?_of_not_r ?_
  rintro rfl
  exact absurd (hall 'r' List.mem_cons_self) (by decide)

/-- A word is the token that it spells, and there is no other. -/
theorem classify_ok {lexeme : Lexeme} :
    classify leading word = .ok lexeme ↔ Spells leading word lexeme := by
  constructor
  · intro h
    unfold classify at h
    split at h
    · next hcolon =>
      obtain ⟨name, rfl⟩ := List.getLast?_eq_some_iff.1 hcolon
      rw [List.dropLast_concat] at h
      split at h
      · next hname =>
        cases h
        exact .labelDef hname
      · cases h
    · exact spells_of_classifyPlain h
  · intro h
    cases h with
    | labelDef hname =>
      rw [classify, if_pos (by simp), List.dropLast_concat, if_pos hname]
    | register hnumeral hn =>
      have hcolon := colon_notMem_numeral hnumeral
      rw [classify_of_no_colon (by simpa using hcolon), classifyPlain,
        registerDigits?_eq_some.2 ⟨rfl, hnumeral⟩]
      simp only [hn]
    | natural hnumeral hn =>
      rw [classify_of_no_colon (colon_notMem_numeral hnumeral), classifyPlain,
        registerDigits?_numeral hnumeral, integerDigits?_numeral hnumeral]
      simp only [hn, Bool.false_eq_true, if_false]
    | positive hnumeral hn =>
      have hcolon := colon_notMem_numeral hnumeral
      rw [classify_of_no_colon (by simpa using hcolon), classifyPlain,
        registerDigits?_of_not_r (by decide), integerDigits?_plus hnumeral]
      simp only [hn, Bool.false_eq_true, if_false]
    | negative hnumeral hn =>
      have hcolon := colon_notMem_numeral hnumeral
      rw [classify_of_no_colon (by simpa using hcolon), classifyPlain,
        registerDigits?_of_not_r (by decide), integerDigits?_minus hnumeral]
      simp only [hn, if_true]
    | mnemonic hleading hname hregister =>
      rw [classify_of_no_colon (colon_notMem_name hname), classifyPlain, hregister,
        integerDigits?_name hname]
      simp only [hname, hleading, if_true]
    | label hleading hname hregister =>
      rw [classify_of_no_colon (colon_notMem_name hname), classifyPlain, hregister,
        integerDigits?_name hname]
      simp only [hname, hleading, if_true, Bool.false_eq_true, if_false]

/-! ## Numerals that are too long -/

/-- A word is shaped like a number: a numeral, alone or after an `r` or a sign. -/
def HasNumeral (word digits : List Char) : Prop :=
  isNumeral digits = true ∧
    (word = digits ∨ word = 'r' :: digits ∨ word = '+' :: digits ∨ word = '-' :: digits)

/-- A numeral with too many digits is a bad word, wherever it stands. -/
theorem classify_of_too_long (h : HasNumeral word digits)
    (hlong : Text.digitLimit < digits.length) : classify leading word = .error .integer := by
  obtain ⟨hnumeral, hword⟩ := h
  have hcolon := colon_notMem_numeral hnumeral
  have hread : Text.readDigits? digits = none := if_neg (Nat.not_le.2 hlong)
  rcases hword with rfl | rfl | rfl | rfl
  · rw [classify_of_no_colon hcolon, classifyPlain, registerDigits?_numeral hnumeral,
      integerDigits?_numeral hnumeral]
    simp only [hread]
  · rw [classify_of_no_colon (by simpa using hcolon), classifyPlain,
      registerDigits?_eq_some.2 ⟨rfl, hnumeral⟩]
    simp only [hread]
  · rw [classify_of_no_colon (by simpa using hcolon), classifyPlain,
      registerDigits?_of_not_r (by decide), integerDigits?_plus hnumeral]
    simp only [hread]
  · rw [classify_of_no_colon (by simpa using hcolon), classifyPlain,
      registerDigits?_of_not_r (by decide), integerDigits?_minus hnumeral]
    simp only [hread]

end Word

/-! ## Tokens of a line -/

theorem Piece.ne_comma_of_classify {leading : Bool} {piece : Piece} {r : Except WordFault Lexeme}
    (h : piece.classify leading = r) (hr : r ≠ .ok .comma) : piece.text ≠ [','] := by
  intro htext
  rw [classify, if_pos htext] at h
  exact hr h.symm

theorem Piece.spells_of_classify {leading : Bool} {piece : Piece} {lexeme : Lexeme}
    (h : piece.classify leading = .ok lexeme) :
    piece.text = [','] ∧ lexeme = .comma ∨ Word.Spells leading piece.text lexeme := by
  unfold classify at h
  split at h
  · next hcomma =>
    cases h
    exact .inl ⟨hcomma, rfl⟩
  · exact .inr (Word.classify_ok.1 h)

namespace SourceLine

variable {line : SourceLine} {leading : Bool} {pieces : List Piece}

/-- A token is the end of the line, or stands for a piece at its place. -/
theorem piece_of_mem_runPieces {token : Token}
    (h : token ∈ (line.runPieces leading pieces).tokens) :
    token = line.endToken ∨ ∃ piece ∈ pieces, ∃ leading',
      piece.classify leading' = .ok token.lexeme ∧ token.location = line.place piece.column := by
  induction pieces generalizing leading with
  | nil => exact .inl (List.mem_singleton.1 h)
  | cons piece pieces ih =>
    unfold runPieces at h
    split at h
    · cases h
    · next lexeme hlexeme =>
      rcases List.mem_cons.1 h with rfl | h
      · exact .inr ⟨piece, List.mem_cons_self, leading, hlexeme, rfl⟩
      · rcases ih h with hend | ⟨piece', hpiece', hrest⟩
        · exact .inl hend
        · exact .inr ⟨piece', List.mem_cons_of_mem piece hpiece', hrest⟩

/-- A bad word is a piece that no token stands for. -/
theorem piece_of_runPieces_fault {d : Diagnostic}
    (h : (line.runPieces leading pieces).fault? = some d) :
    ∃ piece ∈ pieces, ∃ leading' fault,
      piece.classify leading' = .error fault ∧ d = line.badWord piece fault := by
  induction pieces generalizing leading with
  | nil => cases h
  | cons piece pieces ih =>
    unfold runPieces at h
    split at h
    · next fault hfault =>
      cases h
      exact ⟨piece, List.mem_cons_self, leading, fault, hfault, rfl⟩
    · obtain ⟨piece', hpiece', hrest⟩ := ih h
      exact ⟨piece', List.mem_cons_of_mem piece hpiece', hrest⟩

/-- A line with a piece that cannot be a token has a bad word, this one or one before it. -/
theorem exists_fault_of_piece {piece : Piece} (hpiece : piece ∈ pieces)
    (hbad : ∀ leading', ∃ fault, piece.classify leading' = .error fault) :
    ∃ d, (line.runPieces leading pieces).fault? = some d := by
  induction pieces generalizing leading with
  | nil => cases hpiece
  | cons first pieces ih =>
    unfold runPieces
    split
    · exact ⟨_, rfl⟩
    · next lexeme hlexeme =>
      rcases List.mem_cons.1 hpiece with rfl | hpiece
      · obtain ⟨fault, hfault⟩ := hbad leading
        rw [hfault] at hlexeme
        cases hlexeme
      · exact ih hpiece

theorem runPieces_ascend (hpieces : (pieces.map Piece.column).Pairwise (· < ·))
    (hend : ∀ piece ∈ pieces, piece.column < (withoutComment line.text).length + 1) :
    ((line.runPieces leading pieces).tokens.map fun token => token.location.column).Pairwise
      (· < ·) := by
  induction pieces generalizing leading with
  | nil => exact List.pairwise_singleton _ _
  | cons piece pieces ih =>
    rw [List.map_cons, List.pairwise_cons] at hpieces
    obtain ⟨hfirst, hrest⟩ := hpieces
    unfold runPieces
    split
    · exact .nil
    · rw [List.map_cons, List.pairwise_cons]
      refine ⟨?_, ih hrest fun piece' hpiece' => hend piece' (List.mem_cons_of_mem piece hpiece')⟩
      intro next hnext
      obtain ⟨token, htoken, rfl⟩ := List.mem_map.1 hnext
      show (piece.column : Int) < token.location.column
      rcases piece_of_mem_runPieces htoken with rfl | ⟨piece', hpiece', _, _, hlocation⟩
      · exact Int.ofNat_lt.2 (hend piece List.mem_cons_self)
      · rw [hlocation]
        exact Int.ofNat_lt.2 (hfirst _ (List.mem_map_of_mem hpiece'))

/-- The tokens of a line stand at ascending columns. -/
theorem run_ascend (line : SourceLine) :
    (line.run.tokens.map fun token => token.location.column).Pairwise (· < ·) := by
  have hcuts := Cuts.of_cut 1 line.text
  refine runPieces_ascend hcuts.ascend ?_
  intro piece hpiece
  rw [Nat.add_comm]
  exact hcuts.column_lt piece hpiece

end SourceLine

end Risc16
