import Risc16.Proofs.Acceptance

/-!
# Placement of instructions and labels

Where the lines of a source put their instructions and labels. An instruction has the number of
instructions before it as its address, and a label that of the instructions on the lines before its
own.

Results:
1. `map_address_instructionsFrom`: addresses count up by one.
2. `mem_symbolsFrom`, `pairwise_symbolsFrom`: the addresses of labels.
3. `Draft.ofLines_placed`: all of that about an accepted source.
4. `Instruction.StandsOn.operand_token`, `Draft.readLines_standsOn`: every instruction stands on a
   line, with a token for each operand.
-/

namespace Risc16

/-- How many of the first `k` lines carry an instruction. -/
def instructionsBefore (lines : List SourceLine) (k : Nat) : Nat :=
  (lines.take k).countP SourceLine.carriesInstruction

@[simp]
theorem instructionsBefore_zero (lines : List SourceLine) : instructionsBefore lines 0 = 0 := by
  simp [instructionsBefore]

@[simp]
theorem instructionsBefore_succ (line : SourceLine) (lines : List SourceLine) (k : Nat) :
    instructionsBefore (line :: lines) (k + 1) =
      (if line.carriesInstruction then 1 else 0) + instructionsBefore lines k := by
  rw [instructionsBefore, List.take_succ_cons, List.countP_cons, Nat.add_comm]
  rfl

/-! ## Places of tokens -/

theorem SourceLine.runPieces_line {line : SourceLine} {leading : Bool} {pieces : List Piece} :
    ∀ token ∈ (line.runPieces leading pieces).tokens, token.location.line = line.number := by
  induction pieces generalizing leading with
  | nil => simp [runPieces, endToken, place]
  | cons piece pieces ih =>
    simp only [runPieces]
    split
    · simp
    · intro token htoken
      rcases List.mem_cons.1 htoken with rfl | htoken
      · rfl
      · exact ih token htoken

theorem Instruction.StandsOn.line_eq {i : Instruction} {line : SourceLine} (h : i.StandsOn line) :
    i.location.line = line.number := by
  obtain ⟨⟨labels, hspelled⟩, _⟩ := h
  have hline : ∀ token ∈ line.run.tokens, token.location.line = line.number :=
    SourceLine.runPieces_line
  generalize line.run.tokens = tokens at hspelled hline
  cases hspelled with
  | @instruction _ name _ _ _ _ _ _ => exact hline ⟨.mnemonic name, i.location⟩ (by simp)

theorem Statement.Spelled.mem_labels {st : Statement} {tokens : List Token} {name : String}
    {place : Location} (h : st.Spelled tokens) :
    ⟨name, place⟩ ∈ st.labels ↔ ⟨.labelDef name, place⟩ ∈ tokens := by
  have hlabels : ∀ labels : List (Located String),
      ⟨.labelDef name, place⟩ ∈ labels.map labelToken ↔ ⟨name, place⟩ ∈ labels := by
    intro labels
    simp only [List.mem_map, labelToken, Token.mk.injEq, Lexeme.labelDef.injEq]
    constructor
    · rintro ⟨label, hlabel, rfl, rfl⟩
      exact hlabel
    · intro hlabel
      exact ⟨_, hlabel, rfl, rfl⟩
  cases h with
  | labels => simp [hlabels]
  | @instruction _ _ _ used _ _ _ hused =>
    have hnot : ⟨.labelDef name, place⟩ ∉ used := fun hmem => hused.inOperands _ hmem
    simp [hlabels, hnot]

/-! ## Addresses -/

theorem SpelledLine.size_eq (x : SpelledLine) :
    x.statement.size = if x.line.carriesInstruction then 1 else 0 := by
  have hcarries : x.line.carriesInstruction = x.statement.operation?.isSome :=
    x.spelled.any_isMnemonic
  rw [hcarries, Statement.size]
  cases x.statement.operation? <;> rfl

theorem length_instructionsFrom (address : Nat) (script : List SpelledLine) :
    (instructionsFrom address script).length =
      (script.map SpelledLine.line).countP SourceLine.carriesInstruction := by
  rw [List.countP_eq_length_filter, (forall₂_standsOn address script).length_eq]

theorem map_address_instructionsFrom (address : Nat) (script : List SpelledLine) :
    (instructionsFrom address script).map Instruction.address =
      List.range' address (instructionsFrom address script).length := by
  induction script generalizing address with
  | nil => rfl
  | cons x script ih =>
    rw [instructionsFrom, List.map_append, ih, List.length_append, Statement.length_instructions,
      ← List.range'_append_1]
    congr 1
    simp only [Statement.instructions, Statement.size]
    cases x.statement.operation? <;> rfl

theorem address_of_getElem? {script : List SpelledLine} {n : Nat} {i : Instruction}
    (h : (instructionsFrom 0 script)[n]? = some i) : i.address = n := by
  have hmap := congrArg (fun addresses => addresses[n]?) (map_address_instructionsFrom 0 script)
  obtain ⟨hn, _⟩ := List.getElem?_eq_some_iff.1 h
  simp only [List.getElem?_map, h, Option.map_some, List.getElem?_range' hn] at hmap
  simpa using hmap

/-! ## Labels -/

/-- A label has the address of the first instruction on its line or after it. -/
theorem mem_symbolsFrom {address : Nat} {script : List SpelledLine} {symbol : Symbol} :
    symbol ∈ symbolsFrom address script ↔
      ∃ k line name place, (script.map SpelledLine.line)[k]? = some line ∧
        ⟨.labelDef name, place⟩ ∈ line.run.tokens ∧
        symbol = ⟨name, (address : Int) + instructionsBefore (script.map SpelledLine.line) k,
          some place⟩ := by
  induction script generalizing address with
  | nil => simp [symbolsFrom]
  | cons x script ih =>
    simp only [symbolsFrom, List.mem_append, ih, x.size_eq]
    constructor
    · rintro (hmem | ⟨k, line, name, place, hline, htoken, rfl⟩)
      · obtain ⟨⟨name, place⟩, hlabel, rfl⟩ := List.mem_map.1 hmem
        exact ⟨0, x.line, name, place, rfl, x.spelled.mem_labels.1 hlabel, by simp⟩
      · refine ⟨k + 1, line, name, place, hline, htoken, ?_⟩
        rw [List.map_cons, instructionsBefore_succ]
        simp only [Int.natCast_add, Int.add_assoc]
    · rintro ⟨k, line, name, place, hline, htoken, rfl⟩
      cases k with
      | zero =>
        cases hline
        exact .inl (List.mem_map.2 ⟨⟨name, place⟩, x.spelled.mem_labels.2 htoken, by simp⟩)
      | succ k =>
        -- The instruction of the first line counts for the labels of all later ones.
        refine .inr ⟨k, line, name, place, hline, htoken, ?_⟩
        rw [List.map_cons, instructionsBefore_succ]
        simp only [Int.natCast_add, Int.add_assoc]

theorem address_of_mem_symbolsFrom {address : Nat} {script : List SpelledLine} {symbol : Symbol}
    (h : symbol ∈ symbolsFrom address script) :
    (address : Int) ≤ symbol.address ∧
      symbol.address ≤ address + (instructionsFrom address script).length := by
  obtain ⟨k, _, _, _, _, _, rfl⟩ := mem_symbolsFrom.1 h
  have hle : instructionsBefore (script.map SpelledLine.line) k ≤
      (script.map SpelledLine.line).countP SourceLine.carriesInstruction :=
    (List.take_sublist k _).countP_le
  rw [length_instructionsFrom]
  simp only
  omega

/-- Labels are listed in the order of their addresses. -/
theorem pairwise_symbolsFrom (address : Nat) (script : List SpelledLine) :
    ((symbolsFrom address script).map Symbol.address).Pairwise (· ≤ ·) := by
  induction script generalizing address with
  | nil => exact .nil
  | cons x script ih =>
    have hown : ∀ a ∈ (x.statement.symbols address).map Symbol.address, a = address := by
      simp [Statement.symbols]
    rw [symbolsFrom, List.map_append, List.pairwise_append]
    refine ⟨?_, ih _, ?_⟩
    · refine List.Pairwise.imp_of_mem ?_ (List.pairwise_of_forall fun _ _ => trivial)
      intro a b ha hb _
      exact Int.le_of_eq ((hown a ha).trans (hown b hb).symm)
    · intro a ha b hb
      obtain ⟨symbol, hsymbol, rfl⟩ := List.mem_map.1 hb
      have hle := (address_of_mem_symbolsFrom hsymbol).1
      rw [hown a ha]
      omega

/-! ## Accepted sources -/

/-- Every instruction stands at its index. -/
def Program.Indexed (p : Program) : Prop :=
  ∀ n (i : Instruction), p.instructions[n]? = some i → i.address = n

/-- The lines of a source decide the places in its program.

* `indexed`: every instruction stands at its index.
* `own_line`, `label`: a line with an instruction puts it at the number of instructions before the
  line, and a label that is declared on a line has that same address.
* `trailing`: labels after the last instruction stand at the end of the program.
* `names`, `ascending`, `bounded`: labels are listed as declared, by address up to the end. -/
structure Program.PlacedBy (p : Program) (lines : List SourceLine) : Prop where
  indexed : p.Indexed
  own_line : ∀ k line, lines[k]? = some line → line.carriesInstruction = true →
    ∃ i, p.instructions[instructionsBefore lines k]? = some i ∧ i.StandsOn line
  label : ∀ symbol, symbol ∈ p.labels ↔
    ∃ k line name place, lines[k]? = some line ∧ ⟨.labelDef name, place⟩ ∈ line.run.tokens ∧
      symbol = ⟨name, instructionsBefore lines k, some place⟩
  trailing : ∀ k, (∀ line ∈ lines.drop k, line.carriesInstruction = false) →
    instructionsBefore lines k = p.size
  names : p.labels.map Symbol.name = lines.flatMap SourceLine.declaredNames
  ascending : (p.labels.map Symbol.address).Pairwise (· ≤ ·)
  bounded : ∀ symbol ∈ p.labels, symbol.address ≤ p.size

theorem getElem?_filter_carriesInstruction {lines : List SourceLine} {k : Nat} {line : SourceLine}
    (hline : lines[k]? = some line) (hcarries : line.carriesInstruction = true) :
    (lines.filter SourceLine.carriesInstruction)[instructionsBefore lines k]? = some line := by
  induction lines generalizing k with
  | nil => cases hline
  | cons first lines ih =>
    cases k with
    | zero =>
      cases hline
      simp [hcarries]
    | succ k =>
      rw [instructionsBefore_succ, List.filter_cons]
      split
      · rw [Nat.add_comm, List.getElem?_cons_succ]
        exact ih hline
      · rw [Nat.zero_add]
        exact ih hline

theorem instructionsBefore_of_trailing {lines : List SourceLine} {k : Nat}
    (h : ∀ line ∈ lines.drop k, line.carriesInstruction = false) :
    instructionsBefore lines k = lines.countP SourceLine.carriesInstruction := by
  have hnone : (lines.drop k).countP SourceLine.carriesInstruction = 0 :=
    List.countP_eq_zero.2 fun line hline => by simp [h line hline]
  calc instructionsBefore lines k
      = instructionsBefore lines k + (lines.drop k).countP SourceLine.carriesInstruction := by
        rw [hnone, Nat.add_zero]
    _ = lines.countP SourceLine.carriesInstruction := by
        rw [instructionsBefore, ← List.countP_append, List.take_append_drop]

theorem placedBy_script (script : List SpelledLine) :
    Program.PlacedBy ⟨instructionsFrom 0 script, symbolsFrom 0 script⟩
      (script.map SpelledLine.line) where
  indexed _ _ := address_of_getElem?
  own_line k line hline hcarries :=
    Outcome.forall₂_getElem? (forall₂_standsOn 0 script)
      (getElem?_filter_carriesInstruction hline hcarries)
  label symbol := by
    rw [mem_symbolsFrom]
    simp only [Int.cast_ofNat_Int, Int.zero_add]
  trailing k h := by
    rw [instructionsBefore_of_trailing h, ← length_instructionsFrom 0]
    rfl
  names := map_name_symbolsFrom 0 script
  ascending := pairwise_symbolsFrom 0 script
  bounded symbol h := by simpa [Program.size] using (address_of_mem_symbolsFrom h).2

theorem Draft.ofLines_placed {lines : List SourceLine} {d : Draft}
    (h : Draft.ofLines lines = .ok d) : d.program.PlacedBy lines := by
  obtain ⟨⟨script, rfl, hprogram⟩, _⟩ := Draft.ofLines_ok.1 h
  rw [hprogram]
  exact placedBy_script script

/-! ## Operands on their lines -/

theorem OperandTokens.exists_token {m : Mnemonic} {slots : List Slot} {tokens : List Token}
    {operands : List (Located Operand)} (h : OperandTokens m slots tokens operands) :
    ∀ operand ∈ operands, ∃ token ∈ tokens, token.location = operand.location ∧
      ∃ slot, Gives m slot token.lexeme operand.value := by
  induction h with
  | none => simp
  | last hgives =>
    intro operand hoperand
    rw [List.mem_singleton.1 hoperand]
    exact ⟨_, List.mem_singleton_self _, rfl, _, hgives⟩
  | more hgives _ _ ih =>
    intro operand hoperand
    rcases List.mem_cons.1 hoperand with rfl | hoperand
    · exact ⟨_, List.mem_cons_self, rfl, _, hgives⟩
    · obtain ⟨token, htoken, hgiven⟩ := ih operand hoperand
      exact ⟨token, List.mem_cons_of_mem _ (List.mem_cons_of_mem _ htoken), hgiven⟩

namespace Instruction.StandsOn

variable {i : Instruction} {line : SourceLine}

theorem operand_token (h : i.StandsOn line) {operand : Located Operand}
    (hoperand : operand ∈ i.operation.operands) :
    ∃ token ∈ line.run.tokens, token.location = operand.location ∧
      ∃ slot, Gives i.operation.mnemonic slot token.lexeme operand.value := by
  obtain ⟨⟨labels, hspelled⟩, _⟩ := h
  generalize line.run.tokens = tokens at hspelled
  cases hspelled with
  | instruction _ hused =>
    obtain ⟨token, htoken, hgiven⟩ := hused.exists_token operand hoperand
    exact ⟨token, by simp [htoken], hgiven⟩

theorem label_token (h : i.StandsOn line) {name : String} {place : Location}
    (hlabel : ⟨.label name, place⟩ ∈ i.operation.operands) :
    ⟨.label name, place⟩ ∈ line.run.tokens := by
  obtain ⟨⟨labels, hspelled⟩, _⟩ := h
  generalize line.run.tokens = tokens at hspelled
  cases hspelled with
  | instruction _ hused =>
    have htoken := (hused.label_mem_iff (Operation.isJump_of_label hlabel)).2 hlabel
    simp [htoken]

end Instruction.StandsOn

theorem Draft.readLines_standsOn {lines : List SourceLine} {d : Draft} {i : Instruction}
    (h : Draft.empty.readLines lines = .ok d) (hi : i ∈ d.program.instructions) :
    ∃ (k : Nat) (line : SourceLine), lines[k]? = some line ∧ i.StandsOn line := by
  obtain ⟨script, rfl, hprogram, _⟩ := (readLines_ok empty_matched).1 h
  rw [hprogram] at hi
  obtain ⟨n, hn⟩ := List.mem_iff_getElem?.1 hi
  obtain ⟨line, hline, hstands⟩ := Outcome.forall₂_getElem? (forall₂_standsOn 0 script).flip hn
  have hmem := (List.mem_filter.1 (List.mem_of_getElem? hline)).1
  obtain ⟨k, hk⟩ := List.mem_iff_getElem?.1 hmem
  exact ⟨k, line, hk, hstands⟩

/-! ## Line numbers -/

theorem SourceLine.numberFrom_ascend (file : String) (number : Int) (raws : List (List Char)) :
    (∀ line ∈ numberFrom file number raws, number ≤ line.number) ∧
      ((numberFrom file number raws).map SourceLine.number).Pairwise (· < ·) := by
  induction raws generalizing number with
  | nil => simp [numberFrom]
  | cons raw raws ih =>
    obtain ⟨hle, hascend⟩ := ih (number + 1)
    constructor
    · rintro line (_ | ⟨_, hline⟩)
      · exact Int.le_refl number
      · have := hle line hline
        omega
    · rw [numberFrom, List.map_cons, List.pairwise_cons]
      refine ⟨?_, hascend⟩
      intro later hlater
      obtain ⟨line, hline, rfl⟩ := List.mem_map.1 hlater
      exact Int.lt_of_add_one_le (hle line hline)

theorem Draft.ofLines_lines_ascend {lines : List SourceLine} {d : Draft}
    (h : Draft.ofLines lines = .ok d)
    (hnumbers : (lines.map SourceLine.number).Pairwise (· < ·)) :
    (d.program.instructions.map fun i => i.location.line).Pairwise (· < ·) := by
  obtain ⟨⟨script, rfl, hprogram⟩, _⟩ := Draft.ofLines_ok.1 h
  have hsame : List.Forall₂ (fun (line : SourceLine) i => line.number = i.location.line)
      ((script.map SpelledLine.line).filter SourceLine.carriesInstruction)
      (instructionsFrom 0 script) :=
    (forall₂_standsOn 0 script).imp fun _ _ hstands => hstands.line_eq.symm
  have hmap := List.forall₂_eq_eq_eq ▸
    List.forall₂_map_left_iff.2 (List.forall₂_map_right_iff.2 hsame)
  rw [hprogram, ← hmap]
  exact hnumbers.sublist (List.filter_sublist.map SourceLine.number)

end Risc16
