import Risc16.Proofs.SourceNumbers

/-!
# Reading a printed program

A program whose labels are addresses can be printed, an instruction to a line, and read again. What
comes back has no labels and the same instructions, so it prints the same text and builds the same
words, or fails for the same cause. Only the places differ.

Results:
1. `Program.exists_ofSource_print`: the text of a program without labels is accepted, and gives the
   instructions of the program.
2. `Program.mapError_build`: such a program builds what the first one builds.
3. `Draft.printable_link`: the program of a source can be printed once its labels are addresses.
4. `Draft.print_reads_back`: all of that for the program of a source.
-/

namespace Risc16

open Outcome

/-! ## Lines of a text -/

namespace Text

/-- Lines with line feeds between them are cut into the same lines. -/
theorem splitLines_intercalate {lines : List (List Char)} (hne : lines ≠ [])
    (h : ∀ line ∈ lines, '\n' ∉ line) : splitLines (['\n'].intercalate lines) = lines := by
  rw [splitLines]
  exact List.splitOn_intercalate '\n' h hne

theorem length_splitOn_le (mark : Char) (text : List Char) :
    (text.splitOn mark).length ≤ text.length + 1 := by
  induction text with
  | nil => exact Nat.le_refl 1
  | cons c text ih =>
    rw [List.splitOn_cons_eq_if_modifyHead]
    split
    · exact Nat.succ_le_succ ih
    · rw [List.length_modifyHead]
      exact Nat.le_succ_of_le ih

theorem dropLineEnd_eq_self {line : List Char} (hreturn : '\r' ∉ line) (hfeed : '\n' ∉ line) :
    dropLineEnd line = line := by
  refine dropLineEnd_of_getLast? fun c hlast => ?_
  have hc : c ∈ line := List.mem_of_getLast? hlast
  refine ⟨?_, ?_⟩
  · rintro rfl
    exact hreturn hc
  · rintro rfl
    exact hfeed hc

end Text

/-! ## Programs as text -/

/-- The instructions of a program as source text, one to a line. -/
def Program.print (p : Program) : String :=
  "\n".intercalate (p.instructions.map fun i => i.operation.render)

/-- The second instruction has the operation of the first, with its operands at any places. -/
def Instruction.Moved (i j : Instruction) : Prop :=
  ∃ p q, j.operation = i.operation.placed p q

theorem Operation.Printable.notMem_render {o : Operation} (h : o.Printable) {c : Char}
    (hblank : Text.isBlank c = true) (hspace : c ≠ ' ') : c ∉ o.render.toList := by
  intro hc
  rcases isBlank_of_mem_render h hc with hc | hc
  · exact hspace hc
  · rw [hblank] at hc
    cases hc

theorem Operation.Printable.lineFeed_notMem {o : Operation} (h : o.Printable) :
    '\n' ∉ o.render.toList :=
  h.notMem_render (by decide) (by decide)

theorem Operation.Printable.dropLineEnd_render {o : Operation} (h : o.Printable) :
    Text.dropLineEnd o.render.toList = o.render.toList :=
  Text.dropLineEnd_eq_self (h.notMem_render (by decide) (by decide)) h.lineFeed_notMem

theorem Operation.render_placed (p q : Location) (o : Operation) :
    (o.placed p q).render = o.render := by
  cases o <;> rfl

/-- Lines of printed instructions spell the same instructions and declare no labels. -/
theorem exists_printed_script {is : List Instruction} (h : ∀ i ∈ is, i.operation.Printable)
    (file : String) (number : Int) (address : Nat) :
    ∃ script : List SpelledLine,
      script.map SpelledLine.line =
        SourceLine.numberFrom file number (is.map fun i => i.operation.render.toList) ∧
      List.Forall₂ Instruction.Moved is (instructionsFrom address script) ∧
      symbolsFrom address script = [] := by
  induction is generalizing number address with
  | nil => exact ⟨[], rfl, .nil, rfl⟩
  | cons i is ih =>
    have hi := h i List.mem_cons_self
    obtain ⟨x, p, q, place, hline, hstatement⟩ := Operation.exists_spelledLine hi file number
    obtain ⟨script, hlines, hmoved, hsymbols⟩ :=
      ih (fun j hj => h j (List.mem_cons_of_mem i hj)) (number + 1) (address + 1)
    refine ⟨x :: script, ?_, ?_, ?_⟩
    · rw [List.map_cons, List.map_cons, SourceLine.numberFrom, SourceLine.ofText,
        hi.dropLineEnd_render, hline, hlines]
    · rw [instructionsFrom, hstatement]
      exact .cons ⟨p, q, rfl⟩ hmoved
    · rw [symbolsFrom, hstatement]
      exact hsymbols

namespace Program

theorem toList_print (p : Program) :
    p.print.toList =
      ['\n'].intercalate (p.instructions.map fun i => i.operation.render.toList) := by
  rw [print, String.toList_intercalate, List.map_map]
  rfl

/-- A program of operations that can be printed and read again. -/
def Printable (p : Program) : Prop :=
  ∀ i ∈ p.instructions, i.operation.Printable

theorem exists_script_print {p : Program} (h : p.Printable) (file : String) :
    ∃ script : List SpelledLine,
      script.map SpelledLine.line = SourceLine.ofSource file p.print.toList ∧
      List.Forall₂ Instruction.Moved p.instructions (instructionsFrom 0 script) ∧
      symbolsFrom 0 script = [] := by
  rw [SourceLine.ofSource, toList_print]
  cases hinstructions : p.instructions with
  | nil =>
    -- The empty text has one line, which says nothing.
    let x : SpelledLine := ⟨⟨file, 1, []⟩, ⟨[], none⟩, rfl, .labels, by simp⟩
    exact ⟨[x], rfl, .nil, rfl⟩
  | cons i is =>
    rw [← hinstructions, Text.splitLines_intercalate]
    · exact exists_printed_script h file 1 0
    · simp [hinstructions]
    · intro line hline
      obtain ⟨j, hj, rfl⟩ := List.mem_map.1 hline
      exact (h j hj).lineFeed_notMem

theorem Printable.of_moved {p q : Program} (h : p.Printable)
    (hmoved : List.Forall₂ Instruction.Moved p.instructions q.instructions) : q.Printable := by
  intro j hj
  obtain ⟨n, hn⟩ := List.mem_iff_getElem?.1 hj
  obtain ⟨i, hi, _, _, hoperation⟩ := forall₂_getElem? hmoved.flip hn
  rw [Operation.Printable, hoperation, Operation.values_placed]
  exact h i (List.mem_of_getElem? hi)

theorem Printable.no_label {p : Program} (h : p.Printable) {i : Instruction}
    (hi : i ∈ p.instructions) {name : String} {place : Location} :
    ⟨.label name, place⟩ ∉ i.operation.operands :=
  fun hlabel => h i hi (.label name) (List.mem_map_of_mem hlabel)

/-- The text of a program without labels is accepted, and gives the program again. -/
theorem exists_ofSource_print {p : Program} (h : p.Printable) (file : String) :
    ∃ again : Draft, Draft.ofSource file p.print.toList = .ok again ∧
      again.program.labels = [] ∧ again.symbols.symbols = [] ∧
      List.Forall₂ Instruction.Moved p.instructions again.program.instructions := by
  obtain ⟨script, hlines, hmoved, hsymbols⟩ := exists_script_print h file
  let again : Draft := ⟨⟨instructionsFrom 0 script, []⟩, .empty⟩
  have hprintable : again.program.Printable := h.of_moved hmoved
  refine ⟨again, Draft.ofLines_ok.2 ⟨⟨script, hlines, ?_⟩, rfl, ?_⟩, rfl, rfl, hmoved⟩
  · rw [hsymbols]
  · rintro ⟨i, r⟩ hr
    obtain ⟨hi, hlabel⟩ := mem_references.1 hr
    exact absurd hlabel (hprintable.no_label hi)

end Program

/-! ## Words of a moved program -/

theorem Operation.encode_placed (s : Settings) (p q : Location) (o : Operation) :
    ((o.placed p q).encode s).mapError Located.value = (o.encode s).mapError Located.value := by
  cases o with
  | nop | alu op a b | inv a => rfl
  | ldi a value =>
    simp only [placed, encode, encodeImmediate]
    split <;> rfl
  | transfer way a device =>
    simp only [placed, encode, encodeDevice]
    split
    · split <;> rfl
    · rfl
  | branch condition a target | jump target =>
    obtain ⟨value | name, place⟩ := target
    · simp only [placed, encode, encodeTarget]
      split <;> rfl
    · rfl

theorem Instruction.mapError_encode (s : Settings) (i : Instruction) :
    (i.encode s).mapError Diagnostic.cause = (i.operation.encode s).mapError Located.value := by
  unfold encode
  cases i.operation.encode s <;> rfl

theorem Instruction.Moved.mapError_encode {i j : Instruction} (h : i.Moved j) (s : Settings) :
    (j.encode s).mapError Diagnostic.cause = (i.encode s).mapError Diagnostic.cause := by
  obtain ⟨p, q, hoperation⟩ := h
  rw [Instruction.mapError_encode, Instruction.mapError_encode, hoperation,
    Operation.encode_placed]

theorem Operation.Printable.link_eq {o : Operation} (h : o.Printable) (t : SymbolTable) :
    o.link t = o := by
  cases o with
  | branch condition a target | jump target =>
    obtain ⟨value | name, place⟩ := target
    · rfl
    · exact (h (.label name) (by simp [values, operands, Target.operand])).elim
  | _ => rfl

namespace Program

variable {p p' q q' : Program} {t t' : SymbolTable}

theorem Printable.resolve_eq (h : p.Printable) (t : SymbolTable) : p.resolve t = .ok p := by
  refine resolve_ok.2 ⟨?_, ?_⟩
  · rintro ⟨i, hi, r, hlabel, _⟩
    exact h.no_label hi hlabel
  · have hmap : p.instructions.map (Instruction.link t) = p.instructions.map id := by
      refine List.map_congr_left ?_
      intro i hi
      rw [Instruction.link, (h i hi).link_eq, id]
    rw [link, hmap, List.map_id]

theorem map_words_build (s : Settings) (h : p.resolve t = .ok q) :
    (p.build s t).map Output.words =
      if s.capacity < p.size then .error ⟨.programSize p.size s.capacity, none, none⟩
      else q.instructions.mapM (Instruction.encode s) := by
  split
  · next hsize =>
    rw [build_of_lt hsize]
    rfl
  · next hsize =>
    rw [build_of_le (Int.not_lt.1 hsize), h]
    show ((q.instructions.mapM (Instruction.encode s)).bind _).map _ = _
    cases q.instructions.mapM (Instruction.encode s) <;> rfl

/-- Programs that resolve to the same instructions have the same words, or fail for the same
cause. -/
theorem mapError_build (h : p.resolve t = .ok q) (h' : p'.resolve t' = .ok q')
    (hmoved : List.Forall₂ Instruction.Moved q.instructions q'.instructions) (s : Settings) :
    ((p'.build s t').map Output.words).mapError Diagnostic.cause =
      ((p.build s t).map Output.words).mapError Diagnostic.cause := by
  have hsize : p'.size = p.size := by
    obtain ⟨_, rfl⟩ := resolve_ok.1 h
    obtain ⟨_, rfl⟩ := resolve_ok.1 h'
    rw [← link_size t p, ← link_size t' p']
    exact hmoved.length_eq.symm
  rw [map_words_build s h, map_words_build s h', hsize]
  split
  · rfl
  · rw [mapM_mapError, mapM_mapError]
    exact mapM_congr (hmoved.imp fun _ _ h => h.mapError_encode s)

end Program

/-! ## Programs of a source -/

/-- The operand with the address in place of a label that the table holds. -/
def Operand.link (t : SymbolTable) : Operand → Operand
  | .label name =>
    match t.find? name with
    | some symbol => .immediate symbol.address
    | none => .label name
  | operand => operand

theorem Target.operand_link (t : SymbolTable) (target : Target) :
    (target.link t).operand = target.operand.link t := by
  cases target with
  | address value => rfl
  | label name =>
    simp only [Target.link, Target.operand, Operand.link]
    cases t.find? name <;> rfl

theorem Operation.values_link (t : SymbolTable) (o : Operation) :
    (o.link t).values = o.values.map (Operand.link t) := by
  cases o with
  | branch condition a target =>
    show [_, (target.value.link t).operand] = [_, target.value.operand.link t]
    rw [Target.operand_link]
    rfl
  | jump target =>
    show [(target.value.link t).operand] = [target.value.operand.link t]
    rw [Target.operand_link]
  | _ => rfl

theorem Operation.printable_link {t : SymbolTable} {o : Operation}
    (hdefined : ∀ r, ¬ o.Misses t r)
    (hnumbers : ∀ value, .immediate value ∈ o.values → Text.Writable value.natAbs)
    (htable : ∀ symbol ∈ t.symbols, Text.Writable symbol.address.natAbs) :
    (o.link t).Printable := by
  intro operand hoperand
  rw [values_link] at hoperand
  obtain ⟨original, horiginal, rfl⟩ := List.mem_map.1 hoperand
  cases original with
  | register r => trivial
  | immediate value => exact hnumbers value horiginal
  | label name =>
    obtain ⟨⟨_, place⟩, hlabel, rfl⟩ := List.mem_map.1 horiginal
    have hname : name ∈ t.names :=
      not_not.1 fun hmissing => hdefined ⟨name, place⟩ ⟨hlabel, hmissing⟩
    obtain ⟨symbol, hfind⟩ := SymbolTable.exists_find? hname
    rw [Operand.link, hfind]
    exact htable symbol (List.mem_of_find?_eq_some hfind)

theorem SourceLine.length_numberFrom (file : String) (number : Int) (raws : List (List Char)) :
    (numberFrom file number raws).length = raws.length := by
  induction raws generalizing number with
  | nil => rfl
  | cons raw raws ih => rw [numberFrom, List.length_cons, List.length_cons, ih]

theorem Text.writable_of_le_maxIndex {n m : Nat} (h : (n : Int) ≤ Diagnostic.maxIndex)
    (hm : m ≤ n + 1) : Text.Writable m := by
  have hbound : Text.Writable 0x8000000000000000 := by
    unfold Text.Writable
    decide +kernel
  have hn : n ≤ 0x7FFFFFFFFFFFFFFF := Int.ofNat_le.1 h
  exact hbound.of_le (Nat.le_trans hm (Nat.succ_le_succ hn))

namespace Draft

variable {file : String} {source : List Char} {draft : Draft}

/-- A program has no more instructions than its text has lines. -/
theorem size_le_of_ofSource (hsource : ofSource file source = .ok draft) :
    draft.program.size ≤ source.length + 1 := by
  obtain ⟨⟨script, hlines, hprogram⟩, _⟩ := ofLines_ok.1 hsource
  calc draft.program.size
      = (SourceLine.ofSource file source).countP SourceLine.carriesInstruction := by
        rw [hprogram, Program.size, length_instructionsFrom, hlines]
    _ ≤ (SourceLine.ofSource file source).length := List.countP_le_length
    _ = (Text.splitLines source).length := SourceLine.length_numberFrom _ _ _
    _ ≤ source.length + 1 := Text.length_splitOn_le _ _

/-- The program of a source can be printed once its labels are addresses. -/
theorem printable_link (hsource : ofSource file source = .ok draft)
    (hlength : (source.length : Int) ≤ Diagnostic.maxIndex) :
    (draft.program.link draft.symbols).Printable := by
  intro j hj
  obtain ⟨i, hi, rfl⟩ := List.mem_map.1 hj
  refine Operation.printable_link ?_ ?_ ?_
  · intro r hmisses
    exact not_missesLabel_of_ofSource hsource ⟨i, hi, r, hmisses⟩
  · intro value hvalue
    exact writable_of_mem hsource hi hvalue
  · intro symbol hsymbol
    exact Text.writable_of_le_maxIndex hlength
      (Nat.le_trans (address_le_size hsource hsymbol) (size_le_of_ofSource hsource))

end Draft

/-! ## Fixpoint -/

/-- Two instructions have the same name, and so the same opcode, the same address, and operands of
the same kinds and values. -/
structure Instruction.Alike (i j : Instruction) : Prop where
  mnemonic : j.operation.mnemonic = i.operation.mnemonic
  address : j.address = i.address
  operands : j.operation.values = i.operation.values

theorem Program.Indexed.link {p : Program} (h : p.Indexed) (t : SymbolTable) :
    (p.link t).Indexed := by
  intro n j hj
  rw [Program.link, List.getElem?_map] at hj
  obtain ⟨i, hi, rfl⟩ := Option.map_eq_some_iff.1 hj
  exact h n i hi

theorem Program.Indexed.alike_of_moved {p q : Program} (hp : p.Indexed) (hq : q.Indexed)
    (hmoved : List.Forall₂ Instruction.Moved p.instructions q.instructions) :
    List.Forall₂ Instruction.Alike p.instructions q.instructions := by
  rw [List.forall₂_iff_get] at hmoved ⊢
  obtain ⟨hlength, hmoved⟩ := hmoved
  refine ⟨hlength, ?_⟩
  intro n hi hj
  obtain ⟨a, b, hoperation⟩ := hmoved n hi hj
  refine ⟨?_, ?_, ?_⟩
  · rw [hoperation, Operation.mnemonic_placed]
  · have hown := hp n _ (List.getElem?_eq_getElem hi)
    have hother := hq n _ (List.getElem?_eq_getElem hj)
    exact hother.trans hown.symm
  · rw [hoperation, Operation.values_placed]

theorem Program.print_of_moved {p q : Program}
    (hmoved : List.Forall₂ Instruction.Moved p.instructions q.instructions) :
    q.print = p.print := by
  have hrender : p.instructions.map (fun i => i.operation.render) =
      q.instructions.map fun i => i.operation.render := by
    refine List.forall₂_eq_eq_eq ▸ List.forall₂_map_left_iff.2 (List.forall₂_map_right_iff.2 ?_)
    refine hmoved.imp ?_
    rintro i j ⟨a, b, hoperation⟩
    rw [hoperation, Operation.render_placed]
  rw [print, print, hrender]

/-- Printing is a fixpoint. The program of a source resolves, and the text of the resolved program
is read without labels as the same instructions. These print the same text again and, with any
settings, have the words that the source has, or fail for the same cause.

The characters of a source are counted by indices, so there are at most `Diagnostic.maxIndex`. A
label at an address of more digits than can be read would need far more. -/
theorem Draft.print_reads_back {file : String} {source : List Char} {draft : Draft}
    (hsource : Draft.ofSource file source = .ok draft)
    (hlength : (source.length : Int) ≤ Diagnostic.maxIndex) (file' : String) :
    ∃ resolved again, draft.program.resolve draft.symbols = .ok resolved ∧
      Draft.ofSource file' resolved.print.toList = .ok again ∧
      again.program.labels = [] ∧ again.symbols.symbols = [] ∧
      List.Forall₂ Instruction.Alike resolved.instructions again.program.instructions ∧
      again.program.print = resolved.print ∧
      ∀ s, ((again.program.build s again.symbols).map Output.words).mapError Diagnostic.cause =
        ((draft.program.build s draft.symbols).map Output.words).mapError Diagnostic.cause := by
  have hresolve : draft.program.resolve draft.symbols = .ok (draft.program.link draft.symbols) :=
    Program.resolve_ok.2 ⟨Draft.not_missesLabel_of_ofSource hsource, rfl⟩
  have hprintable := Draft.printable_link hsource hlength
  obtain ⟨again, hagain, hlabels, hsymbols, hmoved⟩ :=
    Program.exists_ofSource_print hprintable file'
  have hindexed := (Draft.ofLines_placed hsource).indexed.link draft.symbols
  refine ⟨_, again, hresolve, hagain, hlabels, hsymbols, ?_, ?_, ?_⟩
  · exact hindexed.alike_of_moved (Draft.ofLines_placed hagain).indexed hmoved
  · exact Program.print_of_moved hmoved
  · intro s
    have hagain_resolve := (hprintable.of_moved hmoved).resolve_eq again.symbols
    exact Program.mapError_build hresolve hagain_resolve hmoved s

/-- Signs, leading zeros, device names, labels and comments are gone from the text that is printed,
and it reads back. -/
theorem Draft.print_reads_back_button_loop :
    ∃ draft resolved again,
      Draft.ofSource "a"
        "in r1, BTNC ; press\nback: ldi r2,+007\nldi r3, -0\njz r1, back".toList = .ok draft ∧
      draft.program.resolve draft.symbols = .ok resolved ∧
      resolved.print = "in r1, 1\nldi r2, 7\nldi r3, 0\njz r1, 1" ∧
      Draft.ofSource "b" resolved.print.toList = .ok again ∧
      again.program.print = resolved.print := by
  have htext : ((Draft.ofSource "a"
      "in r1, BTNC ; press\nback: ldi r2,+007\nldi r3, -0\njz r1, back".toList).bind fun draft =>
        draft.program.resolve draft.symbols).map Program.print =
      .ok "in r1, 1\nldi r2, 7\nldi r3, 0\njz r1, 1" := by decide +kernel
  obtain ⟨program, hprogram, hprint⟩ := map_ok.1 htext
  obtain ⟨draft, hsource, hresolved⟩ := bind_ok.1 hprogram
  obtain ⟨resolved, again, hresolve, hagain, _, _, _, hfixed, _⟩ :=
    Draft.print_reads_back hsource (by decide) "b"
  have hsame : program = resolved := by
    rw [hresolve] at hresolved
    exact (Except.ok.inj hresolved).symm
  exact ⟨draft, resolved, again, hsource, hresolve, hsame ▸ hprint, hagain, hfixed⟩

end Risc16
