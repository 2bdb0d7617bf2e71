import Risc16.Proofs.BuildOutcome

/-!
# Linked programs

The check for undeclared labels and the replacement of labels are two walks over a program. They
fail on the same reference and with the same diagnostic. Where both succeed, the program that
results has no labels left to look up, so a table given to it later has no effect, and it is built
into the words of the program that it came from.

Results:
1. `Program.checkLabels_error_iff_references`: the check reports the first reference that the table
   does not hold.
2. `Program.resolve_of_references_eq_nil`: a program without references is resolved already.
3. `Program.build_of_resolve`: a resolved program builds like the program with its labels.
4. `Program.resolve_outcome`: all of it together, for any program and any table.
-/

namespace Risc16

open Outcome

/-! ## Linked instructions -/

/-- The second operand is the first one linked. Registers and immediates stay, and a label becomes
the address in the table, at the place where the label was. -/
inductive Operand.Linked (t : SymbolTable) : Located Operand → Located Operand → Prop
  | register (number : Register) (place : Location) :
      Linked t ⟨.register number, place⟩ ⟨.register number, place⟩
  | immediate (value : Int) (place : Location) :
      Linked t ⟨.immediate value, place⟩ ⟨.immediate value, place⟩
  | label {symbol : Symbol} (place : Location) :
      symbol ∈ t.symbols →
      Linked t ⟨.label symbol.name, place⟩ ⟨.immediate symbol.address, place⟩

/-- The second instruction is the first one with its operands linked. The opcode goes with the
mnemonic. -/
structure Instruction.Linked (t : SymbolTable) (i j : Instruction) : Prop where
  mnemonic : j.operation.mnemonic = i.operation.mnemonic
  operands : List.Forall₂ (Operand.Linked t) i.operation.operands j.operation.operands
  address : j.address = i.address
  location : j.location = i.location
  sourceLine : j.sourceLine = i.sourceLine

section Operations

variable {t : SymbolTable}

theorem Operand.Linked.ne_label {a b : Located Operand} (h : Linked t a b) (name : String) :
    b.value ≠ .label name := by
  cases h <;> nofun

/-- A target that is a label of the table becomes the address of that label. -/
theorem Target.linked_of_mem {target : Target} (place : Location)
    (h : ∀ name, target = .label name → name ∈ t.names) :
    Operand.Linked t ⟨target.operand, place⟩ ⟨(target.link t).operand, place⟩ := by
  cases target with
  | address value => exact .immediate value place
  | label name =>
    obtain ⟨symbol, hfind⟩ := SymbolTable.exists_find? (h name rfl)
    have hname : symbol.name = name := by simpa using List.find?_some hfind
    simp only [link, hfind]
    exact hname ▸ .label place (List.mem_of_find?_eq_some hfind)

variable {o : Operation}

theorem Operation.linked_of_target? {target : Located Target} (hdefined : ∀ r, ¬ o.Misses t r)
    (htarget : o.target? = some target) :
    Operand.Linked t ⟨target.value.operand, target.location⟩
      ⟨(target.value.link t).operand, target.location⟩ := by
  obtain ⟨target, place⟩ := target
  refine Target.linked_of_mem place ?_
  rintro name rfl
  exact not_not.1 fun hmissing => hdefined ⟨name, place⟩ ⟨target?_eq_label.1 htarget, hmissing⟩

theorem Operation.linked_operands (hdefined : ∀ r, ¬ o.Misses t r) :
    List.Forall₂ (Operand.Linked t) o.operands (o.link t).operands := by
  cases o with
  | nop => exact .nil
  | alu op a b => exact .cons (.register _ _) (.cons (.register _ _) .nil)
  | inv a => exact .cons (.register _ _) .nil
  | ldi a value => exact .cons (.register _ _) (.cons (.immediate _ _) .nil)
  | transfer way a device => exact .cons (.register _ _) (.cons (.immediate _ _) .nil)
  | branch condition a target =>
    exact .cons (.register _ _) (.cons (linked_of_target? hdefined rfl) .nil)
  | jump target => exact .cons (linked_of_target? hdefined rfl) .nil

theorem Operation.mnemonic_link : (o.link t).mnemonic = o.mnemonic := by
  cases o <;> rfl

theorem Operation.reference?_link (hdefined : ∀ r, ¬ o.Misses t r) :
    (o.link t).reference? = none := by
  rw [Option.eq_none_iff_forall_ne_some]
  intro r hr
  have hlabel := target?_eq_label.2 (reference?_eq_some.1 hr)
  rw [link_target?, Option.map_eq_some_iff] at hlabel
  obtain ⟨target, htarget, hlinked⟩ := hlabel
  have hne := (linked_of_target? hdefined htarget).ne_label r.value
  rw [(Located.mk.inj hlinked).1] at hne
  exact hne rfl

theorem Operation.link_of_reference?_eq_none (h : o.reference? = none) : o.link t = o := by
  cases o with
  | branch condition a target | jump target =>
    obtain ⟨value | name, place⟩ := target
    · rfl
    · cases h
  | _ => rfl

theorem Instruction.linked_link {i : Instruction} (hdefined : ∀ r, ¬ i.operation.Misses t r) :
    i.Linked t (i.link t) :=
  ⟨Operation.mnemonic_link, Operation.linked_operands hdefined, rfl, rfl, rfl⟩

end Operations

/-! ## Linked programs -/

namespace Program

variable {p q : Program} {t : SymbolTable}

theorem references_eq_nil :
    p.references = [] ↔ ∀ i ∈ p.instructions, i.operation.reference? = none := by
  simp [references, List.filterMap_eq_nil_iff]

theorem isResolved_iff : p.isResolved = true ↔ p.references = [] := by
  simp [references_eq_nil, isResolved, Instruction.isResolved]

/-- The check reports the first reference that the table does not hold. -/
theorem checkLabels_error_iff_references {d : Diagnostic} :
    p.checkLabels t = .error d ↔
      ∃ before i r after, p.references = before ++ (i, r) :: after ∧
        (∀ reference ∈ before, reference.2.value ∈ t.names) ∧ r.value ∉ t.names ∧
        d = t.undefined r.value (some r.location) (some i.sourceLine) := by
  have hfind : ∀ i r,
      p.references.find? (fun reference => !t.contains reference.2.value) = some (i, r) ↔
        ∃ before after, p.references = before ++ (i, r) :: after ∧
          (∀ reference ∈ before, reference.2.value ∈ t.names) ∧ r.value ∉ t.names := by
    intro i r
    simp only [List.find?_eq_some_iff_append, Bool.not_eq_true', Bool.not_not,
      SymbolTable.contains_eq_false, SymbolTable.contains_eq_true]
    constructor
    · rintro ⟨hmissing, before, after, hsplit, hbefore⟩
      exact ⟨before, after, hsplit, hbefore, hmissing⟩
    · rintro ⟨before, after, hsplit, hbefore, hmissing⟩
      exact ⟨hmissing, before, after, hsplit, hbefore⟩
  rw [checkLabels]
  constructor
  · intro h
    split at h
    · next i r hsome =>
      obtain ⟨before, after, hsplit, hbefore, hmissing⟩ := (hfind i r).1 hsome
      cases h
      exact ⟨before, i, r, after, hsplit, hbefore, hmissing, rfl⟩
    · cases h
  · rintro ⟨before, i, r, after, hsplit, hbefore, hmissing, rfl⟩
    rw [(hfind i r).2 ⟨before, after, hsplit, hbefore, hmissing⟩]

theorem checkLabels_error_iff_resolve {d : Diagnostic} :
    p.checkLabels t = .error d ↔ p.resolve t = .error d := by
  rw [resolve_eq, map_error]

theorem linked_of_resolve (h : p.resolve t = .ok q) :
    List.Forall₂ (Instruction.Linked t) p.instructions q.instructions := by
  obtain ⟨hdefined, rfl⟩ := resolve_ok.1 h
  rw [link, List.forall₂_map_right_iff, List.forall₂_same]
  exact fun i hi => Instruction.linked_link fun r hr => hdefined ⟨i, hi, r, hr⟩

theorem references_of_resolve (h : p.resolve t = .ok q) : q.references = [] := by
  obtain ⟨hdefined, rfl⟩ := resolve_ok.1 h
  rw [references_eq_nil, link]
  intro j hj
  obtain ⟨i, hi, rfl⟩ := List.mem_map.1 hj
  exact Operation.reference?_link fun r hr => hdefined ⟨i, hi, r, hr⟩

theorem link_of_references_eq_nil (h : p.references = []) : p.link t = p := by
  have hlink : ∀ i ∈ p.instructions, i.link t = i := by
    intro i hi
    rw [Instruction.link, Operation.link_of_reference?_eq_none (references_eq_nil.1 h i hi)]
  rw [link, List.map_congr_left hlink, List.map_id']

/-- A program without references is resolved already, and no table changes it. -/
theorem resolve_of_references_eq_nil (h : p.references = []) : p.resolve t = .ok p := by
  have hcheck : p.checkLabels t = .ok () := checkLabels_ok.2 (by simp [h])
  rw [resolve_eq, hcheck, link_of_references_eq_nil h]
  rfl

/-- A resolved program builds like the program with its labels, whatever the table that is given to
the second build. -/
theorem build_of_resolve (s : Settings) (h : p.resolve t = .ok q) (t' : SymbolTable) :
    q.build s t' = (p.build s t).map fun o => { o with symbols := t' } := by
  have hsize : q.size = p.size := (linked_of_resolve h).length_eq.symm
  by_cases hlt : s.capacity < p.size
  · rw [build_of_lt hlt, build_of_lt (hsize ▸ hlt), hsize]
    rfl
  · have hfits := Int.not_lt.1 hlt
    rw [build_of_le hfits, build_of_le (hsize ▸ hfits), h,
      resolve_of_references_eq_nil (references_of_resolve h)]
    simp only [bind, Except.bind]
    cases q.instructions.mapM (Instruction.encode s) <;> rfl

/-- Checking the labels of a program and replacing them agree, for any program and any table. Either
both fail with the diagnostic of the first reference that the table does not hold, or neither fails.
Then each label has become the address in the table and nothing else has changed, and no table has
an effect on the program that results, not even in a build. -/
theorem resolve_outcome (p : Program) (t : SymbolTable) :
    (∀ d, p.checkLabels t = .error d ↔ p.resolve t = .error d) ∧
    (∀ d, p.resolve t = .error d →
      ∃ before i r after, p.references = before ++ (i, r) :: after ∧
        (∀ reference ∈ before, reference.2.value ∈ t.names) ∧ r.value ∉ t.names ∧
        d = t.undefined r.value (some r.location) (some i.sourceLine)) ∧
    (p.checkLabels t = .ok () →
      ∃ q, p.resolve t = .ok q ∧ q.references = [] ∧ q.isResolved = true ∧ q.labels = p.labels ∧
        List.Forall₂ (Instruction.Linked t) p.instructions q.instructions ∧
        (∀ t', q.resolve t' = .ok q) ∧
        ∀ s t', q.build s t' = (p.build s t).map fun o => { o with symbols := t' }) := by
  refine ⟨fun d => checkLabels_error_iff_resolve, ?_, ?_⟩
  · intro d hresolve
    exact checkLabels_error_iff_references.1 (checkLabels_error_iff_resolve.2 hresolve)
  · intro hcheck
    have hresolve : p.resolve t = .ok (p.link t) := by
      rw [resolve_eq, hcheck]
      rfl
    have hnone := references_of_resolve hresolve
    exact ⟨p.link t, hresolve, hnone, isResolved_iff.2 hnone, rfl, linked_of_resolve hresolve,
      fun t' => resolve_of_references_eq_nil hnone, fun s => build_of_resolve s hresolve⟩

/-- Two references, of which one table holds both and the other only the second. The resolved
program needs neither table. -/
theorem resolve_outcome_two_tables :
    let p : Program := ⟨[⟨.branch .zero ⟨⟨1, by decide⟩, "a", 1, 4⟩ ⟨.label "end", "a", 1, 8⟩, 0,
        ⟨"a", 1, 1⟩, "jz r1, end"⟩, ⟨.jump ⟨.label "top", "a", 2, 3⟩, 1, ⟨"a", 2, 1⟩, "j top"⟩], []⟩
    let t : SymbolTable := ⟨[⟨"top", 0, none⟩, ⟨"end", 2, none⟩], by decide⟩
    let t' : SymbolTable := ⟨[⟨"top", 9, none⟩], by decide⟩
    p.resolve t' = .error (t'.undefined "end" (some ⟨"a", 1, 8⟩) (some "jz r1, end")) ∧
      ∃ q, p.resolve t = .ok q ∧ q.resolve t' = .ok q ∧
        (q.build {} t').map Output.words = .ok [0xd102, 0xf000] := by
  intro p t t'
  have hwords : (p.build {} t).map Output.words = .ok [0xd102, 0xf000] := by decide +kernel
  obtain ⟨hagree, _, _⟩ := resolve_outcome p t'
  obtain ⟨_, _, hlinked⟩ := resolve_outcome p t
  obtain ⟨q, hresolve, _, _, _, _, hagain, hbuild⟩ := hlinked (by decide +kernel)
  refine ⟨(hagree _).1 (by decide +kernel), q, hresolve, hagain t', ?_⟩
  obtain ⟨o, houtput, hword⟩ := map_ok.1 hwords
  rw [hbuild, houtput]
  exact congrArg Except.ok hword

end Program

end Risc16
