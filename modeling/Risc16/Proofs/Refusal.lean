import Risc16.Proofs.Reading
import Risc16.Proofs.Spelling

/-!
# Reports about a line

What a line that cannot be read is reported for. Every report is about something that stands on the
line: a bad word, a token that does not fit, or a second declaration of a label. Bad words come
first, for all tokens of a line are classified before any is read.

Results:
1. `SourceLine.readOperands_keeps`: operands are refused at a token of the line, and reading them
   goes forward.
2. `Draft.readTokens_error`: a token that does not fit, or a label that is declared twice.
3. `Draft.reports_of_readLine`: all reports about a line.
-/

namespace Risc16

open Outcome

/-! ## Tokens that do not fit -/

namespace SourceLine

/-- A reader sees the tokens still to come, and after them the end of the line. -/
def Sees (line : SourceLine) (tokens : List Token) (token : Token) : Prop :=
  token ∈ tokens ∨ token = line.endToken

/-- A diagnostic refuses a token that the reader sees. -/
def Refuses (line : SourceLine) (tokens : List Token) (e : Diagnostic) : Prop :=
  ∃ token fault, line.Sees tokens token ∧ e = line.refuse token fault

/-- A step of a reader keeps to the line: it refuses a token that it sees, or leaves tokens from the
end of those it got. -/
def Keeps {α : Type} (line : SourceLine) (tokens : List Token) :
    Except Diagnostic (α × List Token) → Prop
  | .error e => line.Refuses tokens e
  | .ok (_, rest) => rest <:+ tokens

variable {α β : Type} {line : SourceLine} {m : Mnemonic} {position : Nat} {tokens : List Token}

theorem sees_peek (line : SourceLine) (tokens : List Token) :
    line.Sees tokens (line.peek tokens) := by
  cases tokens with
  | nil => exact .inr rfl
  | cons token rest => exact .inl List.mem_cons_self

theorem refuses_peek (line : SourceLine) (tokens : List Token) (fault : StatementFault) :
    line.Refuses tokens (line.refuse (line.peek tokens) fault) :=
  ⟨_, fault, line.sees_peek tokens, rfl⟩

theorem refuses_operand {slot : Slot} :
    line.Refuses tokens (line.refuseOperand m slot position tokens) :=
  line.refuses_peek tokens _

theorem refuses_first {token : Token} {rest : List Token} (fault : StatementFault) :
    line.Refuses (token :: rest) (line.refuse token fault) :=
  ⟨token, fault, .inl List.mem_cons_self, rfl⟩

theorem Refuses.of_suffix {rest : List Token} {e : Diagnostic} (h : line.Refuses rest e)
    (hrest : rest <:+ tokens) : line.Refuses tokens e := by
  obtain ⟨token, fault, hsees, he⟩ := h
  rcases hsees with hmem | hend
  · exact ⟨token, fault, .inl (hrest.subset hmem), he⟩
  · exact ⟨token, fault, .inr hend, he⟩

theorem Keeps.of_suffix {rest : List Token} {x : Except Diagnostic (α × List Token)}
    (h : line.Keeps rest x) (hrest : rest <:+ tokens) : line.Keeps tokens x := by
  match x with
  | .error e => exact Refuses.of_suffix h hrest
  | .ok (a, rest') => exact List.IsSuffix.trans h hrest

/-- Steps one after the other keep to the line if each does. -/
theorem Keeps.bind {x : Except Diagnostic (α × List Token)}
    {f : α × List Token → Except Diagnostic (β × List Token)} (hx : line.Keeps tokens x)
    (hf : ∀ a rest, line.Keeps rest (f (a, rest))) : line.Keeps tokens (x >>= f) := by
  match x with
  | .error e => exact hx
  | .ok (a, rest) => exact (hf a rest).of_suffix hx

theorem readComma_error {e : Diagnostic} (h : line.readComma m position tokens = .error e) :
    line.Refuses tokens e := by
  simp only [readComma] at h
  split at h
  · cases h
  · cases h
    exact line.refuses_peek tokens _
  · cases h
    exact line.refuses_peek tokens _

theorem keeps_comma {f : List Token → Except Diagnostic (β × List Token)}
    (hf : ∀ rest, line.Keeps rest (f rest)) :
    line.Keeps tokens (line.readComma m position tokens >>= f) := by
  cases h : line.readComma m position tokens with
  | error e => exact readComma_error h
  | ok rest =>
    obtain ⟨place, rfl⟩ := readComma_ok.1 h
    exact (hf rest).of_suffix (List.suffix_cons _ _)

theorem readRegister_keeps : line.Keeps tokens (line.readRegister m position tokens) := by
  unfold readRegister
  split
  · split
    · exact List.suffix_cons _ _
    · exact refuses_first _
  · exact refuses_operand

theorem readImmediate_keeps : line.Keeps tokens (line.readImmediate m position tokens) := by
  unfold readImmediate
  split
  · exact List.suffix_cons _ _
  · exact refuses_operand

theorem readDevice_keeps {way : Direction} :
    line.Keeps tokens (line.readDevice m way position tokens) := by
  unfold readDevice
  split
  · exact List.suffix_cons _ _
  · split
    · exact List.suffix_cons _ _
    · exact refuses_first _
  · exact refuses_operand

theorem readTarget_keeps : line.Keeps tokens (line.readTarget m position tokens) := by
  unfold readTarget
  split
  · exact List.suffix_cons _ _
  · exact List.suffix_cons _ _
  · exact refuses_operand

/-- Operands are refused at a token of the line. -/
theorem readOperands_keeps (line : SourceLine) (m : Mnemonic) (tokens : List Token) :
    line.Keeps tokens (line.readOperands m tokens) := by
  have hdone : ∀ (o : Operation) (rest : List Token),
      line.Keeps rest (.ok (o, rest)) := fun _ rest => List.suffix_refl rest
  cases m with
  | nop => exact hdone _ _
  | alu op =>
    refine readRegister_keeps.bind fun a rest => keeps_comma fun rest => ?_
    exact readRegister_keeps.bind fun b rest => hdone _ _
  | inv => exact readRegister_keeps.bind fun a rest => hdone _ _
  | ldi =>
    refine readRegister_keeps.bind fun a rest => keeps_comma fun rest => ?_
    exact readImmediate_keeps.bind fun value rest => hdone _ _
  | transfer way =>
    refine readRegister_keeps.bind fun a rest => keeps_comma fun rest => ?_
    exact readDevice_keeps.bind fun device rest => hdone _ _
  | branch condition =>
    refine readRegister_keeps.bind fun a rest => keeps_comma fun rest => ?_
    exact readTarget_keeps.bind fun target rest => hdone _ _
  | jump => exact readTarget_keeps.bind fun target rest => hdone _ _

theorem checkLineEnd_error {e : Diagnostic} (h : line.checkLineEnd m tokens = .error e) :
    line.Refuses tokens e := by
  simp only [checkLineEnd] at h
  split at h
  · cases h
  · split at h
    · cases h
      exact line.refuses_peek tokens _
    · cases h
      exact line.refuses_peek tokens _
  · cases h
    exact line.refuses_peek tokens _

end SourceLine

/-! ## Labels that are declared twice -/

theorem SymbolTable.declare_error {t : SymbolTable} {s : Symbol} {line? : Option String}
    {e : Diagnostic} (h : t.declare s line? = .error e) :
    ∃ first ∈ t.symbols, first.name = s.name ∧
      e = ⟨.duplicateLabel s.name first.location?, s.location?, line?⟩ := by
  unfold declare at h
  split at h
  · next first hfind =>
    cases h
    have hname : first.name = s.name := by simpa using List.find?_some hfind
    exact ⟨first, List.mem_of_find?_eq_some hfind, hname, rfl⟩
  · cases h

namespace Draft

/-- The report that a label is declared on a line for the second time. -/
def duplicate (line : SourceLine) (label : Located String) (first : Symbol) : Diagnostic :=
  ⟨.duplicateLabel label.value first.location?, some label.location,
    some (String.ofList line.text)⟩

theorem declare_error {line : SourceLine} {d : Draft} {label : Located String} {e : Diagnostic}
    (h : d.declare line label = .error e) :
    (∃ fault, e = line.refuse (labelToken label) fault) ∨
      ∃ first ∈ d.symbols.symbols, first.name = label.value ∧ e = duplicate line label first := by
  unfold declare at h
  split at h
  · cases h
    exact .inl ⟨_, rfl⟩
  · exact .inr (SymbolTable.declare_error (map_error.1 h))

theorem symbols_of_declare {line : SourceLine} {d d' : Draft} {label : Located String}
    (h : d.declare line label = .ok d') :
    d'.symbols.symbols =
      d.symbols.symbols ++ [⟨label.value, d.program.size, some label.location⟩] := by
  unfold declare at h
  split at h
  · cases h
  · obtain ⟨t, ht, rfl⟩ := map_ok.1 h
    exact SymbolTable.declare_ok.1 ht

theorem readInstruction_error {line : SourceLine} {d : Draft} {tokens : List Token}
    {e : Diagnostic} (h : d.readInstruction line tokens = .error e) : line.Refuses tokens e := by
  simp only [readInstruction] at h
  split at h
  · cases h
  · split at h
    · cases h
      exact line.refuses_peek tokens _
    · next m hm =>
      have hkeeps := line.readOperands_keeps m tokens.tail
      rcases bind_error.1 h with hoperands | ⟨⟨o, rest⟩, hoperands, h⟩
      · rw [hoperands] at hkeeps
        exact hkeeps.of_suffix (List.tail_suffix tokens)
      · rw [hoperands] at hkeeps
        rcases bind_error.1 h with hend | ⟨_, _, hpush⟩
        · have hrest : rest <:+ tokens := List.IsSuffix.trans hkeeps (List.tail_suffix tokens)
          exact (SourceLine.checkLineEnd_error hend).of_suffix hrest
        · cases hpush
  · cases h
    exact line.refuses_peek tokens _

/-- `DeclaredTwice d tokens label first`: a label is declared by one of the tokens, and `first` of
the same name stands in the draft or is declared by a token before it. -/
def DeclaredTwice (d : Draft) (tokens : List Token) (label : Located String) (first : Symbol) :
    Prop :=
  first.name = label.value ∧ ∃ before after, tokens = before ++ labelToken label :: after ∧
    (first ∈ d.symbols.symbols ∨
      ∃ place, first.location? = some place ∧ labelToken ⟨label.value, place⟩ ∈ before)

theorem DeclaredTwice.cons {line : SourceLine} {d d' : Draft} {label other : Located String}
    {first : Symbol} {rest : List Token} (hdeclare : d.declare line other = .ok d')
    (h : d'.DeclaredTwice rest label first) :
    d.DeclaredTwice (labelToken other :: rest) label first := by
  obtain ⟨hname, before, after, rfl, hfirst⟩ := h
  refine ⟨hname, labelToken other :: before, after, rfl, ?_⟩
  rcases hfirst with hmem | ⟨place, hplace, hbefore⟩
  · rw [symbols_of_declare hdeclare] at hmem
    rcases List.mem_append.1 hmem with hmem | hmem
    · exact .inl hmem
    · -- The first one is the label that was just declared.
      rw [List.mem_singleton.1 hmem] at hname
      refine .inr ⟨other.location, by rw [List.mem_singleton.1 hmem], ?_⟩
      rw [← hname]
      exact List.mem_cons_self
  · exact .inr ⟨place, hplace, List.mem_cons_of_mem _ hbefore⟩

/-- A line whose tokens cannot be read has one that does not fit, or declares a label again. -/
theorem readTokens_error {line : SourceLine} {d : Draft} {tokens : List Token} {e : Diagnostic}
    (h : d.readTokens line tokens = .error e) :
    line.Refuses tokens e ∨
      ∃ label first, d.DeclaredTwice tokens label first ∧ e = duplicate line label first := by
  -- Every label changes the draft, so the draft stays free in the induction on the tokens.
  induction tokens generalizing d with
  | nil => exact .inl (readInstruction_error h)
  | cons token rest ih =>
    unfold readTokens at h
    split at h
    · next name place _ htokens =>
      cases htokens
      rcases bind_error.1 h with hdeclare | ⟨d', hdeclare, h⟩
      · rcases declare_error hdeclare with ⟨fault, he⟩ | ⟨first, hfirst, hname, he⟩
        · exact .inl ⟨_, fault, .inl List.mem_cons_self, he⟩
        · exact .inr ⟨⟨name, place⟩, first, ⟨hname, [], rest, rfl, .inl hfirst⟩, he⟩
      · rcases ih h with hrefuses | ⟨label, first, htwice, he⟩
        · exact .inl (hrefuses.of_suffix (List.suffix_cons _ _))
        · exact .inr ⟨label, first, htwice.cons hdeclare, he⟩
    · exact .inl (readInstruction_error h)

/-! ## All reports -/

/-- The reports about a line after the lines that gave a draft.

* `word`: the first bad word.
* `statement`: a token that does not fit, on a line without bad words.
* `duplicate`: a label that is declared again, on a line without bad words. -/
inductive Reports (d : Draft) (line : SourceLine) : Diagnostic → Prop
  | word {piece : Piece} {leading : Bool} {fault : WordFault} :
      line.run.fault? = some (line.badWord piece fault) → piece ∈ Piece.cut 1 line.text →
      piece.classify leading = .error fault → Reports d line (line.badWord piece fault)
  | statement {token : Token} {fault : StatementFault} :
      line.run.fault? = none → token ∈ line.run.tokens → Reports d line (line.refuse token fault)
  | duplicate {label : Located String} {first : Symbol} :
      line.run.fault? = none → d.DeclaredTwice line.run.tokens label first →
      Reports d line (Draft.duplicate line label first)

end Draft

theorem SourceLine.endToken_mem_runPieces {line : SourceLine} {leading : Bool}
    {pieces : List Piece} (h : (line.runPieces leading pieces).fault? = none) :
    line.endToken ∈ (line.runPieces leading pieces).tokens := by
  induction pieces generalizing leading with
  | nil => exact List.mem_singleton_self _
  | cons piece pieces ih =>
    unfold runPieces at h ⊢
    split at h
    · cases h
    · exact List.mem_cons_of_mem _ (ih h)

/-- A line that cannot be read is reported for what stands on it, bad words first. -/
theorem Draft.reports_of_readLine {line : SourceLine} {d : Draft} {e : Diagnostic}
    (h : d.readLine line = .error e) : d.Reports line e := by
  rcases bind_error.1 h with hfault | ⟨tokens, hlexed, hread⟩
  · unfold SourceLine.tokens at hfault
    split at hfault
    · next fault hrun =>
      cases hfault
      obtain ⟨piece, hpiece, leading, fault, hclassify, rfl⟩ :=
        SourceLine.piece_of_runPieces_fault hrun
      exact .word hrun hpiece hclassify
    · cases hfault
  · obtain ⟨hrun, rfl⟩ := SourceLine.tokens_ok.1 hlexed
    rcases readTokens_error hread with ⟨token, fault, hsees, rfl⟩ | ⟨label, first, htwice, rfl⟩
    · rcases hsees with hmem | rfl
      · exact .statement hrun hmem
      · exact .statement hrun (SourceLine.endToken_mem_runPieces hrun)
    · exact .duplicate hrun htwice

end Risc16
