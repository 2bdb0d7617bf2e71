import Risc16.Proofs.FirstFault
import Risc16.Proofs.Printing

/-!
# Numbers of a source

A number on a line was read from its digits, so it has no more of them than can be written. What a
report about a source adds to these numbers are addresses of a table and the capacity. A machine has
at most 256 words, so with its settings and the labels of the source every report can be written.

Results:
1. `Instruction.StandsOn.writable`: the numbers of an instruction.
2. `Draft.writable_of_fails`: the numbers in a report of a build.
3. `Assembly.writable_of_isValid`: every report of an assembly for a machine.
-/

namespace Risc16

open Outcome

/-! ## Numbers of a line -/

theorem Word.Spells.writable {leading : Bool} {word : List Char} {value : Int}
    (h : Word.Spells leading word (.immediate value)) : Text.Writable value.natAbs := by
  cases h with
  | natural hnumeral hread | positive hnumeral hread => exact .of_readDigits? hnumeral hread
  | negative hnumeral hread =>
    rw [Int.natAbs_neg]
    exact .of_readDigits? hnumeral hread

theorem SourceLine.writable_of_mem_run {line : SourceLine} {token : Token} {value : Int}
    (htoken : token ∈ line.run.tokens) (hvalue : token.lexeme = .immediate value) :
    Text.Writable value.natAbs := by
  rcases piece_of_mem_runPieces htoken with rfl | ⟨piece, _, leading, hclassify, _⟩
  · cases hvalue
  · rw [hvalue] at hclassify
    rcases Piece.spells_of_classify hclassify with ⟨_, hcomma⟩ | hspells
    · cases hcomma
    · exact hspells.writable

theorem Direction.writable_deviceNumber {way : Direction} {name : String} {number : Nat}
    (h : way.deviceNumber? name = some number) : Text.Writable number := by
  have hsmall : ∀ device ∈ way.devices, device.2 ≤ 9 := by
    cases way <;> decide
  obtain ⟨before, after, hdevices, _⟩ := List.lookup_eq_some_iff.1 h
  have hnumber := hsmall (name, number) (by simp [hdevices])
  have hnine : Text.Writable 9 := by
    unfold Text.Writable
    decide
  exact hnine.of_le hnumber

/-- The numbers of an instruction are written on its line, or are those of devices. -/
theorem Instruction.StandsOn.writable {i : Instruction} {line : SourceLine} {value : Int}
    (h : i.StandsOn line) (hvalue : .immediate value ∈ i.operation.values) :
    Text.Writable value.natAbs := by
  obtain ⟨⟨operand, place⟩, hoperand, rfl⟩ := List.mem_map.1 hvalue
  obtain ⟨token, htoken, _, slot, hgives⟩ := h.operand_token hoperand
  generalize hlexeme : token.lexeme = lexeme at hgives
  cases hgives with
  | immediate | deviceNumber | address => exact SourceLine.writable_of_mem_run htoken hlexeme
  | deviceName _ hnumber => exact Direction.writable_deviceNumber hnumber

/-! ## Numbers of a report -/

theorem Operation.address_mem_values {o : Operation} {target : Located Target} {address : Int}
    (htarget : o.target? = some target) (haddress : target.value = .address address) :
    .immediate address ∈ o.values := by
  obtain ⟨value, place⟩ := target
  cases haddress
  cases o with
  | branch condition a other | jump other =>
    cases htarget
    simp [values, operands, Target.operand]
  | _ => cases htarget

/-- The numbers that settings and a table bring into a report can be written: the capacity, the last
address that it allows, and the addresses of the table. -/
structure Settings.WritableWith (s : Settings) (t : SymbolTable) : Prop where
  capacity : Text.Writable s.capacity.natAbs
  last : Text.Writable (s.capacity - 1).natAbs
  addresses : ∀ symbol ∈ t.symbols, Text.Writable symbol.address.natAbs

/-- The address that a target leads to is written in the operation or stands in the table. -/
theorem Operation.writable_of_link {t : SymbolTable} {o : Operation} {target : Located Target}
    {address : Int} (htarget : o.target? = some target)
    (hlink : target.value.link t = .address address)
    (haddresses : ∀ symbol ∈ t.symbols, Text.Writable symbol.address.natAbs)
    (hnumbers : ∀ value, .immediate value ∈ o.values → Text.Writable value.natAbs) :
    Text.Writable address.natAbs := by
  cases hvalue : target.value with
  | address value =>
    rw [hvalue] at hlink
    cases hlink
    exact hnumbers address (address_mem_values htarget hvalue)
  | label name =>
    rw [hvalue, Target.link] at hlink
    cases hfind : t.find? name with
    | none =>
      rw [hfind] at hlink
      cases hlink
    | some symbol =>
      rw [hfind] at hlink
      cases hlink
      exact haddresses symbol (List.mem_of_find?_eq_some hfind)

theorem OutOfRange.writable {s : Settings} {t : SymbolTable} {o : Operation}
    {fault : Located RangeFault} (h : OutOfRange s t o fault)
    (hlast : Text.Writable (s.capacity - 1).natAbs)
    (haddresses : ∀ symbol ∈ t.symbols, Text.Writable symbol.address.natAbs)
    (hnumbers : ∀ value, .immediate value ∈ o.values → Text.Writable value.natAbs) :
    Cause.Writable (.range fault.value) := by
  cases h with
  | @immediate a value =>
    have hvalue := hnumbers value.value (by simp [Operation.values, Operation.operands])
    simpa [Cause.Writable, Cause.numbers] using hvalue
  | @target _ target address htarget hlink =>
    have haddress := Operation.writable_of_link htarget hlink haddresses hnumbers
    simpa [Cause.Writable, Cause.numbers] using ⟨haddress, hlast⟩
  | @device way a device | @unwired way a device =>
    have hdevice := hnumbers device.value (by simp [Operation.values, Operation.operands])
    simpa [Cause.Writable, Cause.numbers] using hdevice

namespace Draft

variable {file : String} {source : List Char} {draft : Draft} {s : Settings} {t : SymbolTable}
  {d : Diagnostic}

theorem writable_of_mem (hsource : ofSource file source = .ok draft) {i : Instruction}
    (hi : i ∈ draft.program.instructions) {value : Int}
    (hvalue : .immediate value ∈ i.operation.values) : Text.Writable value.natAbs := by
  obtain ⟨_, line, _, hstands⟩ := readLines_standsOn (readLines_of_ofLines hsource) hi
  exact hstands.writable hvalue

/-- A report of a build can be written if what settings and table bring into it can. -/
theorem writable_of_fails (hsource : ofSource file source = .ok draft) (h : s.WritableWith t)
    (hfails : draft.program.Fails s t d) : d.cause.Writable := by
  cases hfails with
  | size => simpa [Cause.Writable, Cause.numbers] using h.capacity
  | label => exact Cause.FromSource.writable trivial
  | range _ _ hfirst hout =>
    exact hout.writable h.last h.addresses fun _ => writable_of_mem hsource hfirst.1

/-- A label of the source stands in its program or right after it. -/
theorem address_le_size (hsource : ofSource file source = .ok draft) {symbol : Symbol}
    (hsymbol : symbol ∈ draft.symbols.symbols) : symbol.address.natAbs ≤ draft.program.size := by
  obtain ⟨_, hmatched, _⟩ := ofLines_ok.1 hsource
  rw [hmatched] at hsymbol
  have hplaced := ofLines_placed hsource
  have hle := hplaced.bounded symbol hsymbol
  obtain ⟨_, _, _, _, _, _, rfl⟩ := (hplaced.label symbol).1 hsymbol
  exact Int.ofNat_le.1 hle

/-- The labels of a program that fits a machine have addresses that can be written, and there is no
address to report of one that does not fit. -/
theorem writable_of_isValid (hsource : ofSource file source = .ok draft)
    (hvalid : s.isValid = true) (hfails : draft.program.Fails s draft.symbols d) :
    d.cause.Writable := by
  obtain ⟨hmin, hmax⟩ := Settings.isValid_iff.1 hvalid
  have hbound : Text.Writable 256 := by decide
  cases hfails with
  | size => simpa [Cause.Writable, Cause.numbers] using hbound.of_le (by omega)
  | label => exact Cause.FromSource.writable trivial
  | range hfits _ hfirst hout =>
    refine hout.writable (hbound.of_le (by omega)) ?_ fun _ => writable_of_mem hsource hfirst.1
    intro symbol hsymbol
    have hle := address_le_size hsource hsymbol
    exact hbound.of_le (by omega)

end Draft

/-- With the settings of a machine, every report of an assembly can be written. -/
theorem Assembly.writable_of_isValid {s : Settings} {file : String} {source : List Char}
    {d : Diagnostic} (hvalid : s.isValid = true)
    (h : (Assembly.ofSource s file source).result = .error d) : d.cause.Writable := by
  rw [Assembly.ofSource_result] at h
  rcases bind_error.1 h with hsource | ⟨draft, hsource, hbuild⟩
  · exact (Draft.fromSource_of_ofLines hsource).writable
  · exact Draft.writable_of_isValid hsource hvalid
      (Program.fails_of_build (Draft.ofLines_placed hsource).indexed hbuild)

end Risc16
