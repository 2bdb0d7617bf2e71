import Risc16.Proofs.CheckedReading
import Risc16.Proofs.RoundTrip
import Risc16.Proofs.SourceNumbers

/-!
# Assemblies never break down

The rest of a checked assembly: an encoder that looks an instruction up by its name and takes the
operands by index, and a packer that takes no word of more than 16 bits. With settings that a
machine can have, none of these breaks down either, so an assembly gives bytes or a diagnostic.

Results:
1. `Checked.encode_follows`: an operation without labels has an encoding, with all its operands.
2. `Checked.build_follows`: so has a whole program.
3. `Checked.assemble_follows`: a checked assembly of a source never breaks down.
4. `Session.assemble_never_breaks_down`: with that, what an assembly can give.
-/

namespace Risc16

open Outcome

namespace Checked

/-! ## Encoding by index -/

/-- The register at an index of the operands. -/
def registerAt (operands : List (Located Operand)) (index : Nat) :
    Checked (Located Cause) (Located Register) := do
  match ← lookup operands[index]? with
  | ⟨.register r, place⟩ => return ⟨r, place⟩
  | _ => lookup none

/-- The number at an index of the operands. -/
def numberAt (operands : List (Located Operand)) (index : Nat) :
    Checked (Located Cause) (Located Int) := do
  match ← lookup operands[index]? with
  | ⟨.immediate value, place⟩ => return ⟨value, place⟩
  | _ => lookup none

/-- The address of the jump target at an index of the operands. -/
def targetAt (s : Settings) (operands : List (Located Operand)) (index : Nat) :
    Checked (Located Cause) Nat := do
  let target ← numberAt operands index
  step (encodeTarget s ⟨.address target.value, target.location⟩)

/-- The word of an instruction by its name. The slots decide where its operands go. -/
def encode (s : Settings) (name : String) (operands : List (Located Operand)) :
    Checked (Located Cause) Nat := do
  let m ← lookup (Mnemonic.ofName? name)
  match m.slots with
  | [] => return m.word
  | [.target] =>
    let n ← targetAt s operands 0
    return m.word ||| n
  | slots =>
    let a ← registerAt operands 0
    match slots with
    | [.register] => return m.wordWith a
    | [.register, .register] =>
      let b ← registerAt operands 1
      return m.wordWith a ||| b.value.val <<< registerBShift
    | [.register, .immediate] =>
      let value ← numberAt operands 1
      let n ← step (encodeImmediate value)
      return m.wordWith a ||| n
    | [.register, .device] =>
      let device ← numberAt operands 1
      match m with
      | .transfer way =>
        let n ← step (encodeDevice s way device)
        return m.wordWith a ||| n <<< deviceShift
      | _ => lookup none
    | [.register, .target] =>
      let n ← targetAt s operands 1
      return m.wordWith a ||| n
    | _ => lookup none

/-- An operation whose target is an address has an encoding, and its operands are there. -/
theorem encode_follows {s : Settings} {o : Operation}
    (htarget : ∀ target, o.target? = some target → ∃ address, target.value = .address address) :
    Follows Eq (encode s o.mnemonic.name o.operands) (o.encode s) := by
  refine follows_lookup o.mnemonic.ofName?_name ?_
  cases o with
  | nop | alu op a b | inv a => rfl
  | ldi a value => exact (follows_step (encodeImmediate value)).map fun _ _ h => h ▸ rfl
  | transfer way a device =>
    exact (follows_step (encodeDevice s way device)).map fun _ _ h => h ▸ rfl
  | branch condition a target =>
    obtain ⟨value, place⟩ := target
    obtain ⟨address, haddress⟩ := htarget _ rfl
    cases haddress
    exact (follows_step (encodeTarget s ⟨.address address, place⟩)).map fun _ _ h => h ▸ rfl
  | jump target =>
    obtain ⟨value, place⟩ := target
    obtain ⟨address, haddress⟩ := htarget _ rfl
    cases haddress
    exact (follows_step (encodeTarget s ⟨.address address, place⟩)).map fun _ _ h => h ▸ rfl

/-! ## Whole programs -/

variable {ε ε' α β : Type}

/-- A computation with another description of its failures. -/
def mapError (f : ε → ε') (x : Checked ε α) : Checked ε' α :=
  ExceptT.mk (x.run.map fun r => r.mapError f)

theorem Follows.mapError {R : α → β → Prop} {x : Checked ε α} {y : Except ε β} (f : ε → ε')
    (h : Follows R x y) : Follows R (mapError f x) (y.mapError f) := by
  match x, y with
  | some (.ok a), .ok b => exact h
  | some (.error e), .error e' => exact congrArg f h

/-- What a run follows holds of its result. -/
theorem Follows.and_ok {R : α → β → Prop} {x : Checked ε α} {y : Except ε β} (h : Follows R x y) :
    Follows (fun a b => R a b ∧ y = .ok b) x y := by
  match x, y with
  | some (.ok a), .ok b => exact ⟨h, rfl⟩
  | some (.error e), .error e' => exact h

theorem follows_mapM {f : α → Checked ε β} {g : α → Except ε β} {as : List α}
    (h : ∀ a ∈ as, Follows Eq (f a) (g a)) : Follows Eq (as.mapM f) (as.mapM g) := by
  induction as with
  | nil => rfl
  | cons a as ih =>
    rw [List.mapM_cons, List.mapM_cons]
    refine (h a List.mem_cons_self).bind ?_
    rintro b _ rfl
    refine (ih fun a' ha' => h a' (List.mem_cons_of_mem a ha')).bind ?_
    rintro bs _ rfl
    rfl

/-- The word of an instruction. -/
def encodeInstruction (s : Settings) (i : Instruction) : Checked Diagnostic Nat :=
  mapError (fun cause => ⟨cause.value, some cause.location, some i.sourceLine⟩)
    (encode s i.operation.mnemonic.name i.operation.operands)

/-- The words of a program. -/
def build (s : Settings) (p : Program) (t : SymbolTable) : Checked Diagnostic (List Nat) :=
  if (p.size : Int) > s.capacity then throw ⟨.programSize p.size s.capacity, none, none⟩
  else do
    let resolved ← step (p.resolve t)
    resolved.instructions.mapM (encodeInstruction s)

/-- A program without missing labels has no label left once it is resolved. -/
theorem link_target_eq {t : SymbolTable} {p : Program} (hdefined : ¬ p.MissesLabel t)
    {i : Instruction} (hi : i ∈ (p.link t).instructions) {target : Located Target}
    (htarget : i.operation.target? = some target) :
    ∃ address, target.value = .address address := by
  obtain ⟨j, hj, rfl⟩ := List.mem_map.1 hi
  have hlink : (j.operation.link t).target? = some target := htarget
  rw [Operation.link_target?] at hlink
  obtain ⟨source, hsource, rfl⟩ := Option.map_eq_some_iff.1 hlink
  exact Operation.exists_link hsource fun r hr => hdefined ⟨j, hj, r, hr⟩

theorem build_follows (s : Settings) (p : Program) (t : SymbolTable) :
    Follows (fun words (o : Output) => words = o.words) (build s p t) (p.build s t) := by
  unfold build Program.build
  by_cases hsize : (p.size : Int) > s.capacity
  · rw [if_pos hsize, if_pos hsize]
    rfl
  · rw [if_neg hsize, if_neg hsize]
    refine (follows_step (p.resolve t)).and_ok.bind ?_
    rintro q _ ⟨rfl, hresolve⟩
    obtain ⟨hdefined, rfl⟩ := Program.resolve_ok.1 hresolve
    have hwords : Follows Eq ((p.link t).instructions.mapM (encodeInstruction s))
        ((p.link t).instructions.mapM (Instruction.encode s)) := by
      refine follows_mapM ?_
      intro i hi
      exact (encode_follows fun target => link_target_eq hdefined hi).mapError _
    rw [← bind_pure ((p.link t).instructions.mapM (encodeInstruction s))]
    refine hwords.bind ?_
    rintro words _ rfl
    rfl

/-- The bytes of a word of 16 bits. -/
def packWord? (word : Nat) : Option (List UInt8) :=
  if word ≤ wordMax then some (wordBytesOf word) else none

/-- The bytes of words. -/
def pack (words : List Nat) : Checked Diagnostic (List UInt8) :=
  lookup ((words.mapM packWord?).map List.flatten)

theorem pack_eq {words : List Nat} (h : ∀ word ∈ words, word ≤ wordMax) :
    pack words = step (.ok (words.flatMap wordBytesOf)) := by
  have hpacked : words.mapM packWord? = some (words.map wordBytesOf) := by
    induction words with
    | nil => rfl
    | cons word words ih =>
      have hword : packWord? word = some (wordBytesOf word) := if_pos (h word List.mem_cons_self)
      rw [List.mapM_cons, hword, ih fun w hw => h w (List.mem_cons_of_mem word hw)]
      rfl
  rw [pack, hpacked, List.flatMap_def]
  rfl

/-- Assemble a source text with checked steps only. -/
def assemble (s : Settings) (file : String) (source : List Char) :
    Checked Diagnostic (List UInt8) := do
  let d ← readLines .empty (SourceLine.ofSource file source)
  step (d.program.checkLabels d.symbols)
  let words ← build s d.program d.symbols
  pack words

/-- With settings that a machine can have, a checked assembly never breaks down. -/
theorem assemble_follows {s : Settings} (hvalid : s.isValid = true) (file : String)
    (source : List Char) :
    Follows Eq (assemble s file source)
      ((Assembly.ofSource s file source).result.map fun o => o.words.flatMap wordBytesOf) := by
  have hchain : (Assembly.ofSource s file source).result.map
      (fun o => o.words.flatMap wordBytesOf) = (do
        let d ← Draft.empty.readLines (SourceLine.ofSource file source)
        d.program.checkLabels d.symbols
        let o ← d.program.build s d.symbols
        return o.words.flatMap wordBytesOf) := by
    rw [Assembly.ofSource_result, Draft.ofSource, Draft.ofLines]
    show (fun o : Output => o.words.flatMap wordBytesOf) <$> (_ : Except Diagnostic Output) = _
    simp only [map_eq_pure_bind, bind_assoc, pure_bind]
  rw [hchain]
  refine (readLines_follows .empty _).bind ?_
  rintro d _ rfl
  refine (follows_step _).bind ?_
  intro _ _ _
  refine (build_follows s d.program d.symbols).and_ok.bind ?_
  rintro words o ⟨rfl, hbuild⟩
  rw [pack_eq (Program.word_le_of_build hvalid hbuild)]
  rfl

end Checked

/-! ## What an assembly gives -/

/-- The causes that an assembly can report. -/
def Cause.FromAssembly : Cause → Prop
  | .word _ _ | .statement _ | .duplicateLabel _ _ | .undefinedLabel _ _ | .range _
  | .programSize _ _ => True
  | .general _ => False

theorem Cause.FromSource.fromAssembly {c : Cause} (h : c.FromSource) : c.FromAssembly := by
  cases c with
  | general => exact h
  | _ => trivial

theorem Assembly.fromAssembly {s : Settings} {file : String} {source : List Char} {e : Diagnostic}
    (h : (Assembly.ofSource s file source).result = .error e) : e.cause.FromAssembly := by
  rw [Assembly.ofSource_result] at h
  rcases bind_error.1 h with hsource | ⟨draft, hsource, hbuild⟩
  · exact (Draft.fromSource_of_ofLines hsource).fromAssembly
  · cases Program.fails_of_build (Draft.ofLines_placed hsource).indexed hbuild with
    | size => trivial
    | label => trivial
    | range => trivial

theorem Session.assemble_result_of_isValid {session : Session}
    (hvalid : session.settings.isValid = true) (file : String) (source : List Char) :
    (session.assemble file source).result =
      ((Assembly.ofSource session.settings file source).result.map
        fun o => o.words.flatMap wordBytesOf).mapError .diagnostic := by
  rw [Session.assemble_result]
  cases hresult : (Assembly.ofSource session.settings file source).result with
  | error e =>
    have hreport := Failure.ofReport_of_writable (Assembly.writable_of_isValid hvalid hresult)
    exact congrArg Except.error hreport
  | ok o =>
    rw [Assembly.ofSource_result] at hresult
    obtain ⟨draft, _, hbuild⟩ := bind_ok.1 hresult
    exact Program.code_of_build hvalid hbuild

/-- A numeral with too many digits makes its line one with a bad word. -/
theorem SourceLine.tokens_of_too_long {line : SourceLine} {piece : Piece} {digits : List Char}
    (hpiece : piece ∈ Piece.cut 1 line.text) (hnumeral : Word.HasNumeral piece.text digits)
    (hlong : Text.digitLimit < digits.length) :
    ∃ d text fault, line.tokens = .error d ∧ d.cause = .word text fault := by
  have hbad : ∀ leading, ∃ fault, piece.classify leading = .error fault := by
    intro leading
    have hclassify : Word.classify leading piece.text = .error .integer :=
      Word.classify_of_too_long hnumeral hlong
    have hne : piece.text ≠ [','] := by
      intro hcomma
      have hother : Word.classify leading [','] = .error .notAToken := rfl
      rw [hcomma, hother] at hclassify
      cases hclassify
    exact ⟨.integer, by rw [Piece.classify, if_neg hne, hclassify]⟩
  obtain ⟨d, hfault⟩ : ∃ d, line.run.fault? = some d := exists_fault_of_piece hpiece hbad
  obtain ⟨piece', _, _, fault, _, rfl⟩ := piece_of_runPieces_fault hfault
  exact ⟨_, _, _, by rw [SourceLine.tokens, hfault], rfl⟩

/-- Assemblies do not break down. With settings that a machine can have, every source gives bytes or
a diagnostic, and a run whose lookups are all checked gives the same: the cursor finds its tokens,
the encoder the instruction and its operands, and the packer words of 16 bits. The tokens of a line
always end with its end, and a numeral that is too long to read is a bad word. -/
theorem Session.assemble_never_breaks_down (session : Session)
    (hvalid : session.settings.isValid = true) (file : String) (source : List Char) :
    (∃ r : Except Diagnostic (List UInt8),
      (Checked.assemble session.settings file source).run = some r ∧
      (session.assemble file source).result = r.mapError .diagnostic ∧
      ∀ d, r = .error d → d.cause.FromAssembly) ∧
    ∀ line ∈ SourceLine.ofSource file source,
      (∀ tokens, line.tokens = .ok tokens → EndsLine tokens) ∧
      ∀ piece ∈ Piece.cut 1 line.text, ∀ digits, Word.HasNumeral piece.text digits →
        Text.digitLimit < digits.length →
        ∃ d text fault, line.tokens = .error d ∧ d.cause = .word text fault := by
  refine ⟨⟨_, ?_, Session.assemble_result_of_isValid hvalid file source, ?_⟩, ?_⟩
  · exact (Checked.assemble_follows hvalid file source).eq_step
  · intro d hd
    exact Assembly.fromAssembly (map_error.1 hd)
  · intro line _
    refine ⟨?_, fun piece hpiece digits => SourceLine.tokens_of_too_long hpiece⟩
    intro tokens htokens
    obtain ⟨hlexed, rfl⟩ := SourceLine.tokens_ok.1 htokens
    exact SourceLine.run_endsLine hlexed

/-- A label, a negative immediate, a device by name and a jump back, in the largest memory. -/
theorem Session.assemble_never_breaks_down_loop :
    Settings.isValid ⟨256, true⟩ = true ∧
      ∃ r, (Checked.assemble ⟨256, true⟩ "a"
          "top: ldi r1, -5\nout r1, SEG_LEFT ; show\nj top".toList).run = some r ∧
        r = .ok [33, 251, 193, 16, 240, 0] := by
  obtain ⟨⟨r, hrun, hresult, _⟩, _⟩ := Session.assemble_never_breaks_down
    ⟨⟨256, true⟩, .empty⟩ (by decide) "a" "top: ldi r1, -5\nout r1, SEG_LEFT ; show\nj top".toList
  have hbytes : (Session.assemble "a" "top: ldi r1, -5\nout r1, SEG_LEFT ; show\nj top".toList
      ⟨⟨256, true⟩, .empty⟩).result = .ok [33, 251, 193, 16, 240, 0] := by decide +kernel
  refine ⟨by decide, r, hrun, ?_⟩
  rw [hbytes] at hresult
  exact mapError_ok.1 hresult.symm

end Risc16
