import Risc16.Proofs.Acceptance
import Risc16.Proofs.Seam

/-!
# The first bad word

Every word of a line is read on its own, from left to right, and the first that is no token ends the
line. So a line is refused exactly if it has a bad word, the report is about the leftmost, and the
tokens before it are those of the line that ends where the word begins.

A name that looks like a register is read as a register, so its numeral has to be short enough to be
read.

Results:
1. `Word.readable_iff`: the readable words are those that are some token.
2. `SourceLine.runPieces_of_fault`: what comes before the first piece that is no token.
3. `SourceLine.leftmost_bad_word`: all of that about a line.
-/

namespace Risc16

/-! ## Readable words -/

namespace Word

/-- A name with a colon. -/
def IsLabelDef (word : List Char) : Prop :=
  ∃ name, isName name = true ∧ word = name ++ [':']

/-- An `r` and a numeral that is not too long. -/
def IsRegister (word : List Char) : Prop :=
  ∃ digits, isNumeral digits = true ∧ digits.length ≤ Text.digitLimit ∧ word = 'r' :: digits

/-- A numeral that is not too long, with a sign or without. -/
def IsInteger (word : List Char) : Prop :=
  ∃ sign digits, (sign = [] ∨ sign = ['+'] ∨ sign = ['-']) ∧ isNumeral digits = true ∧
    digits.length ≤ Text.digitLimit ∧ word = sign ++ digits

/-- A word that can be read. A name counts if it does not look like a register: if it does, it is
readable only as one. -/
def Readable (word : List Char) : Prop :=
  IsLabelDef word ∨ IsRegister word ∨ IsInteger word ∨
    isName word = true ∧ ¬ RegisterShaped (String.ofList word)

variable {word digits : List Char}

theorem exists_readDigits? :
    (∃ n, Text.readDigits? digits = some n) ↔ digits.length ≤ Text.digitLimit := by
  simp [Text.readDigits?]

theorem registerDigits?_ofList :
    registerDigits? word = none ↔ ¬ RegisterShaped (String.ofList word) := by
  rw [← registerDigits?_eq_none, String.toList_ofList]

theorem isName_register (h : isNumeral digits = true) : isName ('r' :: digits) = true := by
  rw [isName, Bool.and_eq_true, List.all_eq_true]
  refine ⟨by decide, ?_⟩
  intro c hc
  exact isNameChar_of_isDigit ((isNumeral_iff.1 h).2 c hc)

/-- The readable words are those that are some token, wherever they stand. -/
theorem readable_iff (leading : Bool) :
    Readable word ↔ ∃ lexeme, classify leading word = .ok lexeme := by
  simp only [classify_ok]
  constructor
  · rintro (⟨name, hname, rfl⟩ | ⟨digits, hnumeral, hshort, rfl⟩ |
      ⟨sign, digits, hsign, hnumeral, hshort, rfl⟩ | ⟨hname, hregister⟩)
    · exact ⟨_, .labelDef hname⟩
    · obtain ⟨n, hn⟩ := exists_readDigits?.2 hshort
      exact ⟨_, .register hnumeral hn⟩
    · obtain ⟨n, hn⟩ := exists_readDigits?.2 hshort
      rcases hsign with rfl | rfl | rfl
      · exact ⟨_, .natural hnumeral hn⟩
      · exact ⟨_, .positive hnumeral hn⟩
      · exact ⟨_, .negative hnumeral hn⟩
    · rw [← registerDigits?_ofList] at hregister
      cases leading with
      | true => exact ⟨_, .mnemonic rfl hname hregister⟩
      | false => exact ⟨_, .label rfl hname hregister⟩
  · rintro ⟨lexeme, hspells⟩
    cases hspells with
    | labelDef hname => exact .inl ⟨_, hname, rfl⟩
    | register hnumeral hn =>
      exact .inr (.inl ⟨_, hnumeral, exists_readDigits?.1 ⟨_, hn⟩, rfl⟩)
    | natural hnumeral hn =>
      exact .inr (.inr (.inl ⟨[], _, .inl rfl, hnumeral, exists_readDigits?.1 ⟨_, hn⟩, rfl⟩))
    | positive hnumeral hn =>
      exact .inr (.inr (.inl
        ⟨['+'], _, .inr (.inl rfl), hnumeral, exists_readDigits?.1 ⟨_, hn⟩, rfl⟩))
    | negative hnumeral hn =>
      exact .inr (.inr (.inl
        ⟨['-'], _, .inr (.inr rfl), hnumeral, exists_readDigits?.1 ⟨_, hn⟩, rfl⟩))
    | mnemonic _ hname hregister | label _ hname hregister =>
      exact .inr (.inr (.inr ⟨hname, registerDigits?_ofList.1 hregister⟩))

end Word

/-- A piece is no token if it is a word that cannot be read. -/
theorem Piece.classify_error_iff (leading : Bool) (piece : Piece) :
    (∃ fault, piece.classify leading = .error fault) ↔
      piece.text ≠ [','] ∧ ¬ Word.Readable piece.text := by
  rw [Word.readable_iff leading, classify]
  by_cases hcomma : piece.text = [',']
  · simp [hcomma]
  · rw [if_neg hcomma]
    cases Word.classify leading piece.text <;> simp [hcomma]

/-- `BadWordAt raw column word`: at a column of a line stands a word that cannot be read. -/
def BadWordAt (raw : List Char) (column : Nat) (word : List Char) : Prop :=
  WordAt 1 raw column word ∧ ¬ Word.Readable word

theorem badWordAt_iff {raw : List Char} {column : Nat} {word : List Char} (leading : Bool) :
    BadWordAt raw column word ↔
      ⟨column, word⟩ ∈ Piece.cut 1 raw ∧
        ∃ fault, Piece.classify leading ⟨column, word⟩ = .error fault := by
  rw [BadWordAt, wordAt_iff, Piece.classify_error_iff, and_assoc]

/-! ## The tokens before a bad word -/

namespace SourceLine

variable {line : SourceLine} {leading : Bool} {pieces : List Piece}

/-- A bad word is the first piece that is no token. The pieces before it give the same tokens on
their own, on any line with this number. -/
theorem runPieces_of_fault {d : Diagnostic}
    (h : (line.runPieces leading pieces).fault? = some d) :
    ∃ before piece after leading' fault, pieces = before ++ piece :: after ∧
      piece.classify leading' = .error fault ∧ d = line.badWord piece fault ∧
      ∀ text, runPieces { line with text := text } leading before =
        ⟨(line.runPieces leading pieces).tokens ++ [endToken { line with text := text }],
          none⟩ := by
  induction pieces generalizing leading with
  | nil => cases h
  | cons piece pieces ih =>
    cases hclassify : piece.classify leading with
    | error fault =>
      rw [runPieces, hclassify] at h ⊢
      cases h
      exact ⟨[], piece, pieces, leading, fault, rfl, hclassify, rfl, fun text => rfl⟩
    | ok lexeme =>
      rw [runPieces, hclassify] at h ⊢
      obtain ⟨before, bad, after, leading', fault, rfl, hbad, hd, hbefore⟩ := ih h
      refine ⟨piece :: before, bad, after, leading', fault, rfl, hbad, hd, ?_⟩
      intro text
      rw [runPieces, hclassify]
      simp only [hbefore text]
      rfl

/-- The tokens of a line and the bad word that ends them, by the raw text. -/
theorem run_ofText (file : String) (number : Int) (raw : List Char) :
    (ofText file number raw).run = (ofText file number raw).runPieces true (Piece.cut 1 raw) := by
  rw [run, ofText, Piece.cut_dropLineEnd]

theorem exists_fault_iff {file : String} {number : Int} {raw : List Char} :
    (∃ d, (ofText file number raw).run.fault? = some d) ↔
      ∃ column word, BadWordAt raw column word := by
  rw [run_ofText]
  constructor
  · rintro ⟨d, hd⟩
    obtain ⟨piece, hpiece, leading, fault, hbad, _⟩ := piece_of_runPieces_fault hd
    exact ⟨piece.column, piece.text, (badWordAt_iff leading).2 ⟨hpiece, fault, hbad⟩⟩
  · rintro ⟨column, word, hbad⟩
    obtain ⟨hpiece, _⟩ := (badWordAt_iff true).1 hbad
    exact exists_fault_of_piece hpiece fun leading => ((badWordAt_iff leading).1 hbad).2

/-- No bad word stands before the piece up to which a line can be read. -/
theorem column_le_of_badWordAt {raw word : List Char} {column : Nat} {before after : List Piece}
    {piece : Piece} (hsplit : Piece.cut 1 raw = before ++ piece :: after)
    (hbefore : (line.runPieces leading before).fault? = none) (hbad : BadWordAt raw column word) :
    piece.column ≤ column := by
  obtain ⟨hpiece, _⟩ := (badWordAt_iff true).1 hbad
  have hascend := List.pairwise_map.1 (Cuts.of_cut 1 raw).ascend
  rw [hsplit] at hpiece hascend
  rcases List.mem_append.1 hpiece with hpiece | hpiece
  · obtain ⟨d, hd⟩ : ∃ d, (line.runPieces leading before).fault? = some d :=
      exists_fault_of_piece hpiece fun leading => ((badWordAt_iff leading).1 hbad).2
    rw [hbefore] at hd
    cases hd
  · rcases List.mem_cons.1 hpiece with rfl | hpiece
    · exact Nat.le_refl _
    · have hlater := (List.pairwise_cons.1 (List.pairwise_append.1 hascend).2.1).1 _ hpiece
      exact Nat.le_of_lt hlater

/-- A line is refused exactly if it has a bad word. The report then names the leftmost with its
column, and the tokens before it are those of the line that ends there, but for the end of it. -/
theorem leftmost_bad_word (file : String) (number : Int) (raw : List Char) :
    ((∃ d, (ofText file number raw).run.fault? = some d) ↔
      ∃ column word, BadWordAt raw column word) ∧
    ∀ d, (ofText file number raw).run.fault? = some d →
      ∃ column word fault, BadWordAt raw column word ∧
        (∀ column' word', BadWordAt raw column' word' → column ≤ column') ∧
        d = ⟨.word (String.ofList word) fault, some ⟨file, number, column⟩,
          some (String.ofList (Text.dropLineEnd raw))⟩ ∧
        (ofText file number (raw.take (column - 1))).tokens =
          .ok ((ofText file number raw).run.tokens ++
            [(ofText file number (raw.take (column - 1))).endToken]) := by
  refine ⟨exists_fault_iff, ?_⟩
  intro d hd
  rw [run_ofText] at hd ⊢
  obtain ⟨before, piece, after, leading, fault, hsplit, hbad, rfl, hbefore⟩ :=
    runPieces_of_fault hd
  have hne := ((piece.classify_error_iff leading).1 ⟨fault, hbad⟩).1
  have hread := hbefore (Text.dropLineEnd (raw.take (piece.column - 1)))
  refine ⟨piece.column, piece.text, fault, ?_, ?_, rfl, ?_⟩
  · exact (badWordAt_iff leading).2 ⟨by simp [hsplit], fault, hbad⟩
  · intro column' word'
    exact column_le_of_badWordAt hsplit (congrArg TokenRun.fault? hread)
  · rw [tokens_ok, run_ofText, Piece.cut_take hsplit hne]
    exact ⟨congrArg TokenRun.fault? hread, congrArg TokenRun.tokens hread⟩

/-- Of two bad words on a line the first is reported, and a third in the comment is none. -/
theorem leftmost_bad_word_of_two :
    let line := ofText "a" 1 "b:in\t,1x r٣ ;$\r".toList
    line.run.fault? =
        some ⟨.word "1x" .integer, some ⟨"a", 1, 7⟩, some "b:in\t,1x r٣ ;$"⟩ ∧
      line.run.tokens.map Token.lexeme = [.labelDef "b", .mnemonic "in", .comma] ∧
      (∃ word, BadWordAt "b:in\t,1x r٣ ;$\r".toList 7 word ∧ String.ofList word = "1x") ∧
      (ofText "a" 1 "b:in\t,".toList).tokens =
        .ok (line.run.tokens ++ [(ofText "a" 1 "b:in\t,".toList).endToken]) := by
  intro line
  have hfault : line.run.fault? =
      some ⟨.word "1x" .integer, some ⟨"a", 1, 7⟩, some "b:in\t,1x r٣ ;$"⟩ := by decide +kernel
  obtain ⟨_, hleftmost⟩ := leftmost_bad_word "a" 1 "b:in\t,1x r٣ ;$\r".toList
  obtain ⟨column, word, fault, hbad, _, hd, htokens⟩ := hleftmost _ hfault
  obtain ⟨hcause, hplace, _⟩ := Diagnostic.mk.inj hd
  have hcolumn : column = 7 := by
    have hplace := congrArg Location.column (Option.some.inj hplace)
    exact (Int.ofNat.inj hplace).symm
  subst hcolumn
  exact ⟨hfault, by decide +kernel, ⟨word, hbad, (Cause.word.inj hcause).1.symm⟩, htokens⟩

/-- A name that looks like a register and has too many digits is refused, though it is a name. -/
theorem long_register_refused :
    let raw := 'r' :: List.replicate 4301 '1'
    ¬ ((∃ d, (ofText "<input>" 1 raw).run.fault? = some d) ↔
      ∃ column word, WordAt 1 raw column word ∧
        ¬ (Word.IsLabelDef word ∨ Word.IsRegister word ∨ Word.IsInteger word ∨
          Word.isName word = true)) := by
  have hlong : Text.digitLimit < (List.replicate 4301 '1').length := by
    rw [List.length_replicate]
    decide
  have hdigit : ∀ c ∈ List.replicate 4301 '1', c.isDigit = true := by
    intro c hc
    rw [List.eq_of_mem_replicate hc]
    decide
  -- From here on the digits are any that are too many.
  generalize List.replicate 4301 '1' = digits at hlong hdigit
  intro raw h
  have hnumeral : Word.isNumeral digits = true :=
    Word.isNumeral_iff.2 ⟨List.ne_nil_of_length_pos (Nat.zero_lt_of_lt hlong), hdigit⟩
  have hname : Word.isName raw = true := Word.isName_register hnumeral
  have hplain : ∀ c ∈ raw, Text.isPlain c = true :=
    fun c hc => Word.isPlain_of_isNameChar (Word.isNameChar_of_isName hname c hc)
  have hword : ∀ column word, WordAt 1 raw column word ↔ column = 1 ∧ word = raw :=
    fun column word => wordAt_of_plain (List.cons_ne_nil 'r' digits) hplain
  have hbad : ¬ Word.Readable raw := by
    rw [Word.readable_iff true, Word.classify_of_too_long ⟨hnumeral, .inr (.inl rfl)⟩ hlong]
    rintro ⟨_, hok⟩
    cases hok
  obtain ⟨column, word, hat, hother⟩ :=
    h.1 (exists_fault_iff.2 ⟨1, raw, (hword 1 raw).2 ⟨rfl, rfl⟩, hbad⟩)
  obtain ⟨_, rfl⟩ := (hword column word).1 hat
  exact hother (.inr (.inr (.inr hname)))

end SourceLine

end Risc16
