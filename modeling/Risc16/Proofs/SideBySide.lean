import Risc16.Proofs.CheckedRun
import Risc16.Proofs.Renaming
import Risc16.Proofs.Reprint

/-!
# Two sources side by side

Two sources may differ in the places of all that they say and in the names of their labels. Names
are looked up but never looked into, so all that matters is which of them are equal. Places are
written down with every operand, label and instruction, and decide nothing.

Results:
1. `Renaming.MapsDraft.readTokens_agree`: the step, a line after lines that were read in step.
2. `Renaming.MapsDraft.readLines_agree`: the run, all lines.
3. `Renaming.ofLines_agree`: the references are found in both, or the same one is missing.
4. `Renaming.ofSource_agree`: both have the same words, or both fail.
5. `Renaming.assemble_agree_of_imp`, `Renaming.assemble_agree`: both give a session the same bytes,
   or both are refused, for related reasons or for the same one.
-/

namespace Risc16

open Outcome

/-! ## Tables -/

namespace SymbolTable

theorem map_find? (t : SymbolTable) (name : String) :
    (t.find? name).map Symbol.address = t.addresses.lookup name := by
  rw [find?, addresses]
  induction t.symbols with
  | nil => rfl
  | cons symbol symbols ih =>
    rw [List.find?_cons, List.map_cons, List.lookup_cons, BEq.comm]
    cases name == symbol.name with
    | true => rfl
    | false => exact ih

/-- A row is found under the new name where it was under the old one. -/
theorem lookup_map {f : String → String} {rows : List (String × Int)} {name : String}
    (h : ∀ row ∈ rows, f row.1 = f name → row.1 = name) :
    (rows.map (Prod.map f id)).lookup (f name) = rows.lookup name := by
  induction rows with
  | nil => rfl
  | cons row rows ih =>
    obtain ⟨other, address⟩ := row
    have hrows := ih fun row hrow => h row (List.mem_cons_of_mem _ hrow)
    have hnames : (f name == f other) = (name == other) := by
      rw [Bool.eq_iff_iff, beq_iff_eq, beq_iff_eq]
      exact ⟨fun heq => (h _ List.mem_cons_self heq.symm).symm, fun heq => heq ▸ rfl⟩
    rw [List.map_cons, Prod.map, List.lookup_cons, List.lookup_cons, hnames, hrows]
    rfl

end SymbolTable

namespace Renaming

/-- The second table is the first one with new names. -/
structure MapsTable (ρ : Renaming) (t t' : SymbolTable) : Prop where
  addresses : t'.addresses = t.addresses.map (Prod.map ρ.rename id)
  names : ∀ name ∈ t.names, name ∈ ρ.names

section

variable {ρ : Renaming} {t t' : SymbolTable} {name : String}

theorem MapsTable.map_find? (h : ρ.MapsTable t t') (hname : name ∈ ρ.names) :
    (t'.find? (ρ.rename name)).map Symbol.address = (t.find? name).map Symbol.address := by
  rw [SymbolTable.map_find?, SymbolTable.map_find?, h.addresses]
  refine SymbolTable.lookup_map ?_
  intro row hrow heq
  obtain ⟨symbol, hsymbol, rfl⟩ := List.mem_map.1 hrow
  exact ρ.injOn (h.names symbol.name (List.mem_map_of_mem hsymbol)) hname heq

theorem MapsTable.contains_eq (h : ρ.MapsTable t t') (hname : name ∈ ρ.names) :
    t'.contains (ρ.rename name) = t.contains name := by
  have hfind := congrArg Option.isSome (h.map_find? hname)
  rwa [Option.isSome_map, Option.isSome_map] at hfind

/-- A label is declared in both tables, or was declared before in both. -/
theorem MapsTable.declare_agree {symbol symbol' : Symbol} {line? line'? : Option String}
    (h : ρ.MapsTable t t') (hknown : symbol.name ∈ ρ.names)
    (hname : symbol'.name = ρ.rename symbol.name) (haddress : symbol'.address = symbol.address) :
    Agree ρ.Reports ρ.MapsTable (t.declare symbol line?) (t'.declare symbol' line'?) := by
  have hsame := h.map_find? hknown
  rw [← hname] at hsame
  unfold SymbolTable.declare
  split
  · next first hfind =>
    split
    · rw [hname]
      exact .error ⟨rfl, rfl⟩
    · next hfind' =>
      rw [hfind, hfind'] at hsame
      cases hsame
  · next hfind =>
    split
    · next first' hfind' =>
      rw [hfind, hfind'] at hsame
      cases hsame
    · refine .ok ⟨?_, ?_⟩
      · have haddresses := h.addresses
        simp only [SymbolTable.addresses, List.map_append, List.map_cons, List.map_nil] at *
        rw [haddresses, hname, haddress]
        rfl
      · intro name hmem
        simp only [SymbolTable.names, List.map_append, List.mem_append] at hmem
        rcases hmem with hmem | hmem
        · exact h.names name hmem
        · cases List.mem_singleton.1 hmem
          exact hknown

end

/-! ## Drafts -/

/-- The second draft is the first one at other places and with new names. -/
structure MapsDraft (ρ : Renaming) (d d' : Draft) : Prop where
  instructions : List.Forall₂ (fun i i' => ρ.MapsOperation i.operation i'.operation)
    d.program.instructions d'.program.instructions
  symbols : ρ.MapsTable d.symbols d'.symbols

section

variable {ρ : Renaming} {before : List Lexeme} {tokens tokens' : List Token}
  {line line' : SourceLine} {lines lines' : List SourceLine} {d d' : Draft}

theorem MapsDraft.size_eq (h : ρ.MapsDraft d d') : d'.program.size = d.program.size :=
  h.instructions.length_eq.symm

theorem empty_mapsDraft : ρ.MapsDraft .empty .empty :=
  ⟨.nil, rfl, fun _ hname => nomatch hname⟩

theorem MapsDraft.declare_agree {name : String} {place place' : Location} (h : ρ.MapsDraft d d')
    (hname : name ∈ ρ.names) :
    Agree ρ.Reports ρ.MapsDraft (d.declare line ⟨name, place⟩)
      (d'.declare line' ⟨ρ.rename name, place'⟩) := by
  have hshape : (Word.registerDigits? (ρ.rename name).toList).isSome =
      (Word.registerDigits? name.toList).isSome := by
    rw [Bool.eq_iff_iff, Option.isSome_iff_ne_none, Option.isSome_iff_ne_none, ne_eq, ne_eq,
      registerDigits?_eq_none, registerDigits?_eq_none, not_not, not_not]
    exact ρ.shape name hname
  unfold Draft.declare
  rw [hshape]
  split
  · exact .error ⟨rfl, rfl⟩
  · refine Agree.map (h.symbols.declare_agree hname rfl ?_) ?_
    · exact congrArg Int.ofNat h.size_eq
    · intro symbols symbols' hsymbols
      exact ⟨h.instructions, hsymbols⟩

theorem MapsDraft.push {place place' : Location} {o o' : Operation} (h : ρ.MapsDraft d d')
    (ho : ρ.MapsOperation o o') :
    ρ.MapsDraft (d.push line place o) (d'.push line' place' o') :=
  ⟨List.rel_append h.instructions (.cons ho .nil), h.symbols⟩

theorem MapsDraft.readInstruction_agree (h : ρ.MapsDraft d d')
    (htokens : ρ.Maps before tokens tokens') (hplace : Lexeme.targetNext before = false) :
    Agree ρ.Reports ρ.MapsDraft (d.readInstruction line tokens)
      (d'.readInstruction line' tokens') := by
  refine htokens.agree_of_other hplace ?_ ?_
  · exact .ok h
  · intro lexeme place place' rest rest' hrest
    cases lexeme with
    | lineEnd => exact .ok h
    | mnemonic name =>
      simp only [Draft.readInstruction, SourceLine.peek, Lexeme.renameDeclared]
      cases hm : Mnemonic.ofName? name with
      | none => exact .error ⟨rfl, rfl⟩
      | some m =>
        rw [← Mnemonic.name_eq_of_ofName? hm] at hrest
        refine (readOperands_agree hrest).bind ?_
        rintro ⟨o, rest₁⟩ ⟨o', rest₁'⟩ ⟨ho, before₁, hplace₁, hrest₁⟩
        refine (checkLineEnd_agree hrest₁ hplace₁).bind ?_
        intro _ _ _
        exact .ok (h.push ho)
    | _ => exact .error ⟨rfl, rfl⟩

/-- Lines that say the same are read in step. -/
theorem MapsDraft.readTokens_agree (h : ρ.MapsDraft d d') (htokens : ρ.Maps before tokens tokens')
    (hplace : Lexeme.targetNext before = false) :
    Agree ρ.Reports ρ.MapsDraft (d.readTokens line tokens) (d'.readTokens line' tokens') := by
  -- No jump target follows a declaration, so this stays true of what was read before.
  induction tokens generalizing before tokens' d d' with
  | nil =>
    have hnil := htokens.nil
    subst hnil
    exact .ok h
  | cons token tokens ih =>
    obtain ⟨lexeme, place⟩ := token
    have hinstruction : Agree ρ.Reports ρ.MapsDraft
        (d.readInstruction line (⟨lexeme, place⟩ :: tokens)) (d'.readInstruction line' tokens') :=
      h.readInstruction_agree htokens hplace
    obtain ⟨place', rest, rfl, hname, hrest⟩ := htokens.cons
    cases lexeme with
    | labelDef name =>
      refine (h.declare_agree (hname name rfl)).bind ?_
      intro d₁ d₁' h₁
      exact ih h₁ hrest rfl
    | _ => exact hinstruction

theorem MapsDraft.readLine_agree (h : ρ.MapsDraft d d') (hline : line.Renamed ρ.rename line')
    (hnames : ∀ name ∈ line.labelNames, name ∈ ρ.names) :
    Agree ρ.Reports ρ.MapsDraft (d.readLine line) (d'.readLine line') := by
  rw [Draft.readLine, Draft.readLine, SourceLine.tokens_ok.2 ⟨hline.lexed, rfl⟩,
    SourceLine.tokens_ok.2 ⟨hline.lexed', rfl⟩]
  exact h.readTokens_agree ⟨hline.lexemes, hnames⟩ rfl

/-- Lines are read in step if each of them is, whatever came before. -/
theorem MapsDraft.readLines_agree_of_step {E : Diagnostic → Diagnostic → Prop}
    (hlines : List.Forall₂ (fun line line' => ∀ d d' : Draft, ρ.MapsDraft d d' →
      Agree E ρ.MapsDraft (d.readLine line) (d'.readLine line')) lines lines')
    (h : ρ.MapsDraft d d') : Agree E ρ.MapsDraft (d.readLines lines) (d'.readLines lines') := by
  induction hlines generalizing d d' with
  | nil => exact .ok h
  | cons hline _ ih => exact (hline d d' h).bind fun d₁ d₁' h₁ => ih h₁

/-- All lines are read in step. -/
theorem MapsDraft.readLines_agree (h : ρ.MapsDraft d d')
    (hlines : List.Forall₂ (SourceLine.Renamed ρ.rename) lines lines')
    (hnames : ∀ line ∈ lines, ∀ name ∈ line.labelNames, name ∈ ρ.names) :
    Agree ρ.Reports ρ.MapsDraft (d.readLines lines) (d'.readLines lines') := by
  refine readLines_agree_of_step (((List.forall₂_and_left _ _).2 ⟨hnames, hlines⟩).imp ?_) h
  rintro line line' ⟨hnames, hline⟩ d d' h
  exact h.readLine_agree hline hnames

end

/-! ## References -/

section

variable {ρ : Renaming} {t t' : SymbolTable} {o o' : Operation} {is is' : List Instruction}

theorem MapsTarget.missing? {target target' : Located Target}
    (h : ρ.MapsTarget target.value target'.value) (ht : ρ.MapsTable t t') :
    ((Operation.jump target').missing? t').map Located.value =
      (((Operation.jump target).missing? t).map Located.value).map ρ.rename := by
  obtain ⟨value, place⟩ := target
  obtain ⟨value', place'⟩ := target'
  cases h with
  | address value => rfl
  | label hname =>
    simp only [Operation.missing?, Operation.reference?, Operation.target?, Option.filter,
      ht.contains_eq hname]
    split <;> rfl

/-- The label that the first operation misses is missed by the second one, under its new name. -/
theorem MapsOperation.missing? (h : ρ.MapsOperation o o') (ht : ρ.MapsTable t t') :
    (o'.missing? t').map Located.value = ((o.missing? t).map Located.value).map ρ.rename := by
  cases h with
  | plain p q hplain =>
    cases o with
    | branch condition a target | jump target => cases hplain
    | _ => rfl
  | branch _ htarget => exact htarget.missing? ht
  | jump htarget => exact htarget.missing? ht

theorem checkLabels_agree {labels labels' : List Symbol}
    (h : List.Forall₂ (fun i i' => ρ.MapsOperation i.operation i'.operation) is is')
    (ht : ρ.MapsTable t t') :
    Agree ρ.Reports Eq (Program.checkLabels ⟨is, labels⟩ t)
      (Program.checkLabels ⟨is', labels'⟩ t') := by
  induction h with
  | nil => exact .ok rfl
  | @cons i i' is is' hhead _ ih =>
    rw [Program.checkLabels_cons, Program.checkLabels_cons]
    have hmissing := hhead.missing? ht
    cases hfirst : i.operation.missing? t with
    | none =>
      rw [hfirst] at hmissing
      rw [Option.map_eq_none_iff.1 hmissing]
      exact ih
    | some r =>
      rw [hfirst] at hmissing
      obtain ⟨r', hsecond, hname⟩ := Option.map_eq_some_iff.1 hmissing
      rw [hsecond]
      simp only [SymbolTable.undefined, hname]
      exact .error (Cause.alike_undefinedLabel _ _ _)

/-- Lines that are read in step give drafts in step. How their faults are related is left open, but
the same reference that is missing has to be the same fault. -/
theorem ofLines_agree_of_readLines {E : Diagnostic → Diagnostic → Prop}
    (hreports : ∀ e e', ρ.Reports e e' → E e e') {lines lines' : List SourceLine}
    (h : Agree E ρ.MapsDraft (Draft.empty.readLines lines) (Draft.empty.readLines lines')) :
    Agree E ρ.MapsDraft (Draft.ofLines lines) (Draft.ofLines lines') := by
  refine h.bind ?_
  intro d d' hdraft
  have hlabels : Agree E Eq (d.program.checkLabels d.symbols) (d'.program.checkLabels d'.symbols) :=
    (checkLabels_agree hdraft.instructions hdraft.symbols).imp
      (fun e e' _ _ => hreports e e') fun _ _ _ _ heq => heq
  refine hlabels.bind ?_
  intro _ _ _
  exact .ok hdraft

/-- Both sources give drafts in step, or are refused for the same reason. -/
theorem ofLines_agree {lines lines' : List SourceLine}
    (hlines : List.Forall₂ (SourceLine.Renamed ρ.rename) lines lines')
    (hnames : ∀ line ∈ lines, ∀ name ∈ line.labelNames, name ∈ ρ.names) :
    Agree ρ.Reports ρ.MapsDraft (Draft.ofLines lines) (Draft.ofLines lines') :=
  ofLines_agree_of_readLines (fun _ _ h => h) (empty_mapsDraft.readLines_agree hlines hnames)

end

/-! ## Words -/

section

variable {ρ : Renaming} {t t' : SymbolTable} {o o' : Operation} {d d' : Draft}

theorem MapsTarget.link {target target' : Target} (h : ρ.MapsTarget target target')
    (ht : ρ.MapsTable t t') (hdeclared : ∀ name, target = .label name → name ∈ t.names) :
    target'.link t' = target.link t := by
  cases h with
  | address value => rfl
  | @label name hname =>
    have hsame := ht.map_find? hname
    obtain ⟨symbol, hfind⟩ := SymbolTable.exists_find? (hdeclared name rfl)
    rw [hfind, Option.map_some, Option.map_eq_some_iff] at hsame
    obtain ⟨symbol', hfind', haddress⟩ := hsame
    simp only [Target.link, hfind, hfind', haddress]

/-- Once labels are addresses, only the places differ. -/
theorem MapsOperation.link (h : ρ.MapsOperation o o') (ht : ρ.MapsTable t t')
    (hdeclared : ∀ r, ¬ o.Misses t r) : ∃ p q, o'.link t' = (o.link t).placed p q := by
  have hname : ∀ target, o.target? = some target → ∀ name, target.value = .label name →
      name ∈ t.names := by
    rintro ⟨_, place⟩ htarget name rfl
    have hlabel := Operation.target?_eq_label.1 htarget
    exact not_not.1 fun hmissing => hdeclared ⟨name, place⟩ ⟨hlabel, hmissing⟩
  cases h with
  | plain p q hplain =>
    refine ⟨p, q, ?_⟩
    cases o with
    | branch condition a target | jump target => cases hplain
    | _ => rfl
  | @branch condition a a' target target' ha htarget =>
    refine ⟨a'.location, target'.location, ?_⟩
    simp only [Operation.link, Operation.placed, htarget.link ht (hname target rfl), ha]
  | @jump target target' htarget =>
    refine ⟨target'.location, target'.location, ?_⟩
    simp only [Operation.link, Operation.placed, htarget.link ht (hname target rfl)]

theorem MapsDraft.moved (h : ρ.MapsDraft d d')
    (hdeclared : ¬ d.program.MissesLabel d.symbols) :
    List.Forall₂ Instruction.Moved (d.program.link d.symbols).instructions
      (d'.program.link d'.symbols).instructions := by
  have hmisses : ∀ i ∈ d.program.instructions, ∀ r, ¬ i.operation.Misses d.symbols r :=
    fun i hi r hr => hdeclared ⟨i, hi, r, hr⟩
  rw [Program.link, Program.link, List.forall₂_map_left_iff, List.forall₂_map_right_iff]
  refine ((List.forall₂_and_left _ _).2 ⟨hmisses, h.instructions⟩).imp ?_
  rintro i i' ⟨hdeclared, ho⟩
  exact ho.link h.symbols hdeclared

end

/-- The second output has the words of the first one, and its table with new names. -/
structure MapsOutput (ρ : Renaming) (o o' : Output) : Prop where
  words : o'.words = o.words
  addresses : o'.symbols.addresses = o.symbols.addresses.map (Prod.map ρ.rename id)

section

variable {ρ : Renaming} {file file' : String} {source source' : List Char}

/-- Sources that are read in step have the same words, or both fail. A value that is out of range in
both has to be the same fault. -/
theorem ofSource_agree {E : Diagnostic → Diagnostic → Prop}
    (hreports : ∀ e e', ρ.Reports e e' → E e e')
    (h : Agree E ρ.MapsDraft (Draft.ofSource file source) (Draft.ofSource file' source'))
    (s : Settings) :
    Agree E ρ.MapsOutput (Assembly.ofSource s file source).result
      (Assembly.ofSource s file' source').result := by
  rw [Assembly.ofSource_result, Assembly.ofSource_result]
  refine h.bind_of_ok ?_
  intro d d' hd hd' hdraft
  have hdeclared := Draft.not_missesLabel_of_ofSource hd
  have hsame := Program.mapError_build (Draft.resolve_of_ofSource hd)
    (Draft.resolve_of_ofSource hd') (hdraft.moved hdeclared) s
  refine (Agree.of_eq hsame).imp ?_ ?_
  · intro e e' he _ hcause
    refine hreports e e' ?_
    -- The labels are all declared, so the cause has no name in it.
    rw [Reports, Cause.rename_of_late (Draft.not_fromSource_of_build hd he), hcause]
    exact ⟨rfl, rfl⟩
  · intro o o' ho ho' hwords
    obtain ⟨_, _, _, hsymbols, _⟩ := Program.build_ok.1 ho
    obtain ⟨_, _, _, hsymbols', _⟩ := Program.build_ok.1 ho'
    exact ⟨hwords, by rw [hsymbols, hsymbols', hdraft.symbols.addresses]⟩

/-- A session with settings that a machine can have gives the same bytes for both, or refuses
both. -/
theorem assemble_agree_of_imp {E : Diagnostic → Diagnostic → Prop}
    (hreports : ∀ e e', ρ.Reports e e' → E e e') {session : Session}
    (hvalid : session.settings.isValid = true)
    (h : Agree E ρ.MapsDraft (Draft.ofSource file source) (Draft.ofSource file' source')) :
    (∃ bytes, (session.assemble file source).result = .ok bytes ∧
      (session.assemble file' source').result = .ok bytes ∧
      ρ.MapsOutput (session.assemble file source).session.output
        (session.assemble file' source').session.output) ∨
    ∃ d d', (session.assemble file source).result = .error (.diagnostic d) ∧
      (session.assemble file' source').result = .error (.diagnostic d') ∧ E d d' := by
  rw [Session.assemble_result_of_isValid hvalid, Session.assemble_result_of_isValid hvalid,
    Session.assemble_output, Session.assemble_output]
  have hagree := ofSource_agree hreports h session.settings
  generalize (Assembly.ofSource session.settings file source).result = r at hagree ⊢
  generalize (Assembly.ofSource session.settings file' source').result = r' at hagree ⊢
  cases hagree with
  | @ok o o' houtput =>
    have hbytes : o'.words.flatMap wordBytesOf = o.words.flatMap wordBytesOf := by
      rw [houtput.words]
    exact .inl ⟨_, rfl, congrArg Except.ok hbytes, houtput⟩
  | error hfault => exact .inr ⟨_, _, rfl, rfl, hfault⟩

/-- A session with settings that a machine can have gives the same bytes for both, or the same
refusal. -/
theorem assemble_agree {session : Session} (hvalid : session.settings.isValid = true)
    (h : Agree ρ.Reports ρ.MapsDraft (Draft.ofSource file source) (Draft.ofSource file' source')) :
    (∃ bytes, (session.assemble file source).result = .ok bytes ∧
      (session.assemble file' source').result = .ok bytes ∧
      ρ.MapsOutput (session.assemble file source).session.output
        (session.assemble file' source').session.output) ∨
    ∃ d d', (session.assemble file source).result = .error (.diagnostic d) ∧
      (session.assemble file' source').result = .error (.diagnostic d') ∧ ρ.Reports d d' :=
  assemble_agree_of_imp (fun _ _ h => h) hvalid h

end

end Renaming

end Risc16
