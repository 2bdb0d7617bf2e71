import Mathlib.Data.List.Nodup
import Risc16.Program
import Risc16.Proofs.Outcome

/-!
# Resolution of labels

Labels are looked up twice: once to check that each is declared, and once more to put its address in
its place. Both lookups fail on the same label, the first that the table does not hold, and where
they succeed each label has become the address in the table and nothing else has changed.

Results:
1. `Program.resolve_eq`: resolving is checking, and then linking.
2. `Program.checkLabels_ok`: the check succeeds if every label that the program refers to is in the
   table.
3. `Program.resolve_ok`, `Program.resolve_error`: a program can be resolved if no instruction misses
   a label, and else the diagnostic is that of the first instruction which does.
-/

namespace Risc16

open Outcome

/-! ## Linking -/

/-- The target with the address in place of a label that the table holds. -/
def Target.link (t : SymbolTable) : Target → Target
  | .address value => .address value
  | .label name =>
    match t.find? name with
    | some symbol => .address symbol.address
    | none => .label name

/-- The operation with the address in place of its label. -/
def Operation.link (t : SymbolTable) : Operation → Operation
  | .branch condition a target => .branch condition a ⟨target.value.link t, target.location⟩
  | .jump target => .jump ⟨target.value.link t, target.location⟩
  | o => o

/-- The instruction with the address in place of its label. -/
def Instruction.link (t : SymbolTable) (i : Instruction) : Instruction :=
  { i with operation := i.operation.link t }

/-- The program with addresses in place of its labels. -/
def Program.link (t : SymbolTable) (p : Program) : Program :=
  { p with instructions := p.instructions.map (Instruction.link t) }

theorem Operation.link_target? (t : SymbolTable) (o : Operation) :
    (o.link t).target? = o.target?.map fun target => ⟨target.value.link t, target.location⟩ := by
  cases o <;> rfl

@[simp]
theorem Program.link_size (t : SymbolTable) (p : Program) : (p.link t).size = p.size := by
  simp [size, link]

theorem SymbolTable.contains_eq_true {t : SymbolTable} {name : String} :
    t.contains name = true ↔ name ∈ t.names := by
  have h := t.find?_eq_none_iff name
  rw [contains, Option.isSome_iff_ne_none, ne_eq, h, not_not]

theorem SymbolTable.contains_eq_false {t : SymbolTable} {name : String} :
    t.contains name = false ↔ name ∉ t.names := by
  rw [← Bool.not_eq_true, contains_eq_true]

theorem SymbolTable.exists_find? {t : SymbolTable} {name : String} (h : name ∈ t.names) :
    ∃ symbol, t.find? name = some symbol :=
  Option.isSome_iff_exists.1 (contains_eq_true.2 h)

theorem SymbolTable.find?_eq_some {t : SymbolTable} {symbol : Symbol} (h : symbol ∈ t.symbols) :
    t.find? symbol.name = some symbol := by
  obtain ⟨symbol', hfind⟩ := exists_find? (List.mem_map_of_mem (f := Symbol.name) h)
  have hname : symbol'.name = symbol.name := by simpa using List.find?_some hfind
  rw [hfind, List.inj_on_of_nodup_map t.nodup_names (List.mem_of_find?_eq_some hfind) h hname]

/-! ## One instruction -/

/-- An operation misses a label: the label is an operand, and the table does not hold it. -/
def Operation.Misses (t : SymbolTable) (o : Operation) (r : Located String) : Prop :=
  ⟨.label r.value, r.location⟩ ∈ o.operands ∧ r.value ∉ t.names

/-- The label that an operation misses. -/
def Operation.missing? (t : SymbolTable) (o : Operation) : Option (Located String) :=
  o.reference?.filter fun r => !t.contains r.value

theorem Operation.target?_eq_label {o : Operation} {name : String} {place : Location} :
    o.target? = some ⟨.label name, place⟩ ↔ ⟨.label name, place⟩ ∈ o.operands := by
  cases o with
  | branch condition a target | jump target =>
    obtain ⟨value | name', location⟩ := target
    · simp [target?, operands, Target.operand]
    · simp [target?, operands, Target.operand, eq_comm]
  | _ => simp [target?, operands]

theorem Operation.reference?_eq_some {o : Operation} {r : Located String} :
    o.reference? = some r ↔ ⟨.label r.value, r.location⟩ ∈ o.operands := by
  obtain ⟨name, place⟩ := r
  rw [← target?_eq_label, reference?]
  split
  · next htarget => simp [htarget]
  · next hother =>
    simp only [reduceCtorEq, false_iff]
    exact hother name place

theorem Operation.missing?_eq_some {t : SymbolTable} {o : Operation} {r : Located String} :
    o.missing? t = some r ↔ o.Misses t r := by
  rw [missing?, Option.filter_eq_some_iff, Bool.not_eq_true', SymbolTable.contains_eq_false,
    reference?_eq_some, Misses]

theorem Operation.missing?_eq_none {t : SymbolTable} {o : Operation} :
    o.missing? t = none ↔ ∀ r, ¬ o.Misses t r := by
  simp only [Option.eq_none_iff_forall_ne_some, ne_eq, missing?_eq_some]

theorem SymbolTable.resolveTarget_eq (t : SymbolTable) (line : String) (target : Located Target) :
    t.resolveTarget line target =
      match (Operation.jump target).missing? t with
      | some r => .error (t.undefined r.value (some r.location) (some line))
      | none => .ok ⟨target.value.link t, target.location⟩ := by
  obtain ⟨value | name, location⟩ := target
  · rfl
  · simp only [resolveTarget, addressOf, Operation.missing?, Operation.reference?,
      Operation.target?, Target.link, contains]
    cases h : t.find? name with
    | none => simp [Except.map, Option.filter, h]
    | some symbol => simp [Except.map, Option.filter, h]

theorem Instruction.resolve_eq (t : SymbolTable) (i : Instruction) :
    i.resolve t =
      match i.operation.missing? t with
      | some r => .error (t.undefined r.value (some r.location) (some i.sourceLine))
      | none => .ok (i.link t) := by
  obtain ⟨operation, address, location, line⟩ := i
  cases operation with
  | branch condition a target =>
    have hmissing : (Operation.branch condition a target).missing? t =
      (Operation.jump target).missing? t := rfl
    simp only [resolve, SymbolTable.resolveTarget_eq, hmissing]
    cases (Operation.jump target).missing? t <;> rfl
  | jump target =>
    simp only [resolve, SymbolTable.resolveTarget_eq]
    cases (Operation.jump target).missing? t <;> rfl
  | _ => rfl

theorem Instruction.resolve_error {t : SymbolTable} {i : Instruction} {e : Diagnostic} :
    i.resolve t = .error e ↔
      ∃ r, i.operation.Misses t r ∧
        e = t.undefined r.value (some r.location) (some i.sourceLine) := by
  simp only [resolve_eq, ← Operation.missing?_eq_some]
  cases i.operation.missing? t with
  | none => simp
  | some r => simp [eq_comm]

theorem Instruction.exists_resolve {t : SymbolTable} {i : Instruction} :
    (∃ j, i.resolve t = .ok j) ↔ ∀ r, ¬ i.operation.Misses t r := by
  rw [resolve_eq, ← Operation.missing?_eq_none]
  cases i.operation.missing? t with
  | none => simp
  | some r => simp

/-! ## Whole programs -/

namespace Program

/-- Some label of a program is not in the table. -/
def MissesLabel (t : SymbolTable) (p : Program) : Prop :=
  ∃ i ∈ p.instructions, ∃ r, i.operation.Misses t r

/-- The check of a program without its first instruction, if that one lacks no label. -/
theorem checkLabels_cons (t : SymbolTable) (i : Instruction) (is : List Instruction)
    (labels : List Symbol) :
    checkLabels ⟨i :: is, labels⟩ t =
      match i.operation.missing? t with
      | some r => .error (t.undefined r.value (some r.location) (some i.sourceLine))
      | none => checkLabels ⟨is, labels⟩ t := by
  simp only [checkLabels, references, Operation.missing?, List.filterMap_cons]
  cases href : i.operation.reference? with
  | none => rfl
  | some r =>
    cases hcontains : t.contains r.value with
    | true => simp [Option.filter, hcontains]
    | false => simp [Option.filter, hcontains]

theorem mapM_resolve (t : SymbolTable) (is : List Instruction) (labels : List Symbol) :
    is.mapM (Instruction.resolve t) =
      (checkLabels ⟨is, labels⟩ t).map fun _ => is.map (Instruction.link t) := by
  induction is with
  | nil => rfl
  | cons i is ih =>
    rw [List.mapM_cons, Instruction.resolve_eq, checkLabels_cons, ih]
    cases i.operation.missing? t with
    | some r => rfl
    | none => cases checkLabels ⟨is, labels⟩ t <;> rfl

/-- Resolving fails where checking fails, and with the same diagnostic. -/
theorem resolve_eq (p : Program) (t : SymbolTable) :
    p.resolve t = (p.checkLabels t).map fun _ => p.link t := by
  rw [resolve, mapM_resolve t p.instructions p.labels]
  cases p.checkLabels t <;> rfl

/-- A reference is an operand that is a label. -/
theorem mem_references {p : Program} {i : Instruction} {r : Located String} :
    (i, r) ∈ p.references ↔
      i ∈ p.instructions ∧ ⟨.label r.value, r.location⟩ ∈ i.operation.operands := by
  simp only [references, List.mem_filterMap, Option.map_eq_some_iff, Prod.mk.injEq]
  constructor
  · rintro ⟨j, hj, r', hr, rfl, rfl⟩
    exact ⟨hj, Operation.reference?_eq_some.1 hr⟩
  · rintro ⟨hi, hr⟩
    exact ⟨i, hi, r, Operation.reference?_eq_some.2 hr, rfl, rfl⟩

theorem checkLabels_ok {p : Program} {t : SymbolTable} :
    p.checkLabels t = .ok () ↔ ∀ r ∈ p.references, r.2.value ∈ t.names := by
  simp only [checkLabels]
  split
  · next i r hfind =>
    have hmem := List.mem_of_find?_eq_some hfind
    have hmissing := List.find?_some hfind
    simp only [Bool.not_eq_true', SymbolTable.contains_eq_false] at hmissing
    simp only [reduceCtorEq, false_iff, not_forall]
    exact ⟨(i, r), hmem, hmissing⟩
  · next hfind =>
    simp only [true_iff]
    intro r hr
    have hcontains := List.find?_eq_none.1 hfind r hr
    simpa [SymbolTable.contains_eq_true] using hcontains

theorem resolve_ok {p q : Program} {t : SymbolTable} :
    p.resolve t = .ok q ↔ ¬ p.MissesLabel t ∧ q = p.link t := by
  -- The check looks at references, which are the labels among the operands.
  have hcheck : p.checkLabels t = .ok () ↔ ¬ p.MissesLabel t := by
    rw [checkLabels_ok]
    constructor
    · rintro h ⟨i, hi, r, hlabel, hmissing⟩
      exact hmissing (h (i, r) (mem_references.2 ⟨hi, hlabel⟩))
    · rintro h ⟨i, r⟩ hr
      obtain ⟨hi, hlabel⟩ := mem_references.1 hr
      exact not_not.1 fun hmissing => h ⟨i, hi, r, hlabel, hmissing⟩
  rw [resolve_eq, map_ok, ← hcheck]
  constructor
  · rintro ⟨_, h, rfl⟩
    exact ⟨h, rfl⟩
  · rintro ⟨h, rfl⟩
    exact ⟨(), h, rfl⟩

theorem resolve_error {p : Program} {t : SymbolTable} {e : Diagnostic} :
    p.resolve t = .error e ↔
      ∃ before i after r, p.instructions = before ++ i :: after ∧
        (∀ j ∈ before, ∀ r, ¬ j.operation.Misses t r) ∧ i.operation.Misses t r ∧
        e = t.undefined r.value (some r.location) (some i.sourceLine) := by
  rw [resolve, map_error, mapM_error]
  simp only [Instruction.exists_resolve, Instruction.resolve_error]
  constructor
  · rintro ⟨before, i, after, hsplit, hbefore, r, hr, he⟩
    exact ⟨before, i, after, r, hsplit, hbefore, hr, he⟩
  · rintro ⟨before, i, after, r, hsplit, hbefore, hr, he⟩
    exact ⟨before, i, after, hsplit, hbefore, r, hr, he⟩

end Program

end Risc16
