import Risc16.Output
import Risc16.Proofs.FieldRange
import Risc16.Proofs.Placement

/-!
# Outcomes of a build

A build has three phases: the program has to fit the memory, its labels have to be in the table, and
its values have to fit their fields. Each phase goes over the whole program before the next begins,
so a value out of range never hides a missing label, wherever the two stand.

Results:
1. `Program.build_ok`: when a build succeeds, and with which words.
2. `Program.fails_of_build`, `Program.Fails.unique`: a build that fails reports the first fault of
   the first phase that finds one, and there is only one such report.
3. `Program.exists_build_iff`, `Program.build_undefinedLabel_iff`, `Program.build_range_iff`: when a
   build succeeds, and which phase finds a fault if it does not.
-/

namespace Risc16

open Outcome

/-! ## The first instruction with a property -/

/-- An instruction is the first of a program with a property, by address. -/
def Program.First (p : Program) (P : Instruction → Prop) (i : Instruction) : Prop :=
  i ∈ p.instructions ∧ P i ∧ ∀ j ∈ p.instructions, P j → i.address ≤ j.address

namespace Program

variable {p : Program} {P : Instruction → Prop} {i j : Instruction}

theorem Indexed.getElem?_address (hindex : p.Indexed) (hi : i ∈ p.instructions) :
    p.instructions[i.address]? = some i := by
  obtain ⟨n, hn⟩ := List.mem_iff_getElem?.1 hi
  rwa [hindex n i hn]

theorem First.exists_mem (h : p.First P i) : ∃ i ∈ p.instructions, P i :=
  ⟨i, h.1, h.2.1⟩

theorem First.unique (hindex : p.Indexed) (hi : p.First P i) (hj : p.First P j) : i = j := by
  obtain ⟨himem, hP, hile⟩ := hi
  obtain ⟨hjmem, hP', hjle⟩ := hj
  have haddress : i.address = j.address := Nat.le_antisymm (hile j hjmem hP') (hjle i himem hP)
  have hget := hindex.getElem?_address himem
  rw [haddress, hindex.getElem?_address hjmem] at hget
  exact (Option.some.inj hget).symm

theorem Indexed.first_of_append {before after : List Instruction} (hindex : p.Indexed)
    (hsplit : p.instructions = before ++ i :: after) (hbefore : ∀ j ∈ before, ¬ P j) (hi : P i) :
    p.First P i := by
  have haddress : i.address = before.length := hindex _ i (by simp [hsplit])
  refine ⟨by simp [hsplit], hi, ?_⟩
  intro j hj hP
  rw [hsplit, List.mem_append, List.mem_cons] at hj
  rcases hj with hj | rfl | hj
  · exact absurd hP (hbefore j hj)
  · exact Nat.le_refl _
  · obtain ⟨n, hn⟩ := List.mem_iff_getElem?.1 hj
    have hlater : j.address = before.length + (n + 1) := by
      refine hindex _ j ?_
      rw [hsplit, List.getElem?_append_right (by omega), Nat.add_sub_cancel_left,
        List.getElem?_cons_succ, hn]
    omega

end Program

/-! ## Faults of a program -/

namespace Program

/-- Some value of a program does not fit its field. -/
def ExceedsRange (s : Settings) (t : SymbolTable) (p : Program) : Prop :=
  ∃ i ∈ p.instructions, ∃ fault, OutOfRange s t i.operation fault

/-- The reports of a build. Each constructor is a phase, and asks that the phases before it found
nothing.

* `size`: the program is longer than the memory.
* `label`: the first label that is not in the table.
* `range`: the first value that does not fit its field. -/
inductive Fails (s : Settings) (t : SymbolTable) (p : Program) : Diagnostic → Prop
  | size : s.capacity < p.size → Fails s t p ⟨.programSize p.size s.capacity, none, none⟩
  | label {i : Instruction} {r : Located String} :
      p.size ≤ s.capacity →
      p.First (fun i => ∃ r, i.operation.Misses t r) i → i.operation.Misses t r →
      Fails s t p (t.undefined r.value (some r.location) (some i.sourceLine))
  | range {i : Instruction} {fault : Located RangeFault} :
      p.size ≤ s.capacity → ¬ p.MissesLabel t →
      p.First (fun i => ∃ fault, OutOfRange s t i.operation fault) i →
      OutOfRange s t i.operation fault →
      Fails s t p ⟨.range fault.value, some fault.location, some i.sourceLine⟩

end Program

theorem Operation.Misses.unique {t : SymbolTable} {o : Operation} {r r' : Located String}
    (h : o.Misses t r) (h' : o.Misses t r') : r = r' := by
  rw [← Operation.missing?_eq_some] at h h'
  exact Option.some.inj (h.symm.trans h')

theorem OutOfRange.unique {s : Settings} {t : SymbolTable} {o : Operation}
    {fault fault' : Located RangeFault} (hdefined : ∀ r, ¬ o.Misses t r)
    (h : OutOfRange s t o fault) (h' : OutOfRange s t o fault') : fault = fault' := by
  -- Both are the cause that the one encoder gives.
  have hcause := (Operation.encode_link_error hdefined).2 ⟨fault, h, rfl⟩
  rw [(Operation.encode_link_error hdefined).2 ⟨fault', h', rfl⟩] at hcause
  obtain ⟨value, location⟩ := fault
  obtain ⟨value', location'⟩ := fault'
  cases hcause
  rfl

namespace Program

variable {s : Settings} {t : SymbolTable} {p : Program}

theorem Fails.unique {e e' : Diagnostic} (hindex : p.Indexed) (h : p.Fails s t e)
    (h' : p.Fails s t e') : e = e' := by
  cases h with
  | size hsize =>
    cases h' with
    | size => rfl
    | label hfits | range hfits => omega
  | label hfits hfirst hmisses =>
    cases h' with
    | size hsize => omega
    | label _ hfirst' hmisses' =>
      cases hfirst.unique hindex hfirst'
      cases hmisses.unique hmisses'
      rfl
    | range _ hdefined => exact absurd hfirst.exists_mem hdefined
  | @range i fault hfits hdefined hfirst hout =>
    cases h' with
    | size hsize => omega
    | label _ hfirst' => exact absurd hfirst'.exists_mem hdefined
    | range _ _ hfirst' hout' =>
      cases hfirst.unique hindex hfirst'
      cases hout.unique (fun r hr => hdefined ⟨i, hfirst.1, r, hr⟩) hout'
      rfl

/-! ## Phases of a build -/

theorem build_of_lt (h : s.capacity < p.size) :
    p.build s t = .error ⟨.programSize p.size s.capacity, none, none⟩ :=
  if_pos h

theorem build_of_le (h : p.size ≤ s.capacity) :
    p.build s t = (do
      let q ← p.resolve t
      let words ← q.instructions.mapM (Instruction.encode s)
      return ⟨q, t, words⟩) :=
  if_neg (Int.not_lt.2 h)

theorem mapM_encode_ok {words : List Nat} :
    (p.link t).instructions.mapM (Instruction.encode s) = .ok words ↔
      List.Forall₂ (fun i word => (i.operation.link t).encode s = .ok word)
        p.instructions words := by
  rw [link, List.mapM_map, mapM_ok]
  simp only [Function.comp, Instruction.encode, mapError_ok]
  rfl

theorem mapM_encode_error {e : Diagnostic} (hdefined : ¬ p.MissesLabel t)
    (h : (p.link t).instructions.mapM (Instruction.encode s) = .error e) :
    ∃ before i after fault, p.instructions = before ++ i :: after ∧
      (∀ j ∈ before, ¬ ∃ fault, OutOfRange s t j.operation fault) ∧
      OutOfRange s t i.operation fault ∧
      e = ⟨.range fault.value, some fault.location, some i.sourceLine⟩ := by
  rw [link, List.mapM_map, mapM_error] at h
  obtain ⟨before, i, after, hsplit, hbefore, hi⟩ := h
  have hnone : ∀ j ∈ p.instructions, ∀ r, ¬ j.operation.Misses t r :=
    fun j hj r hr => hdefined ⟨j, hj, r, hr⟩
  rw [hsplit] at hnone
  obtain ⟨c, hc, rfl⟩ := mapError_error.1 hi
  obtain ⟨fault, hout, rfl⟩ := (Operation.encode_link_error (hnone i (by simp))).1 hc
  refine ⟨before, i, after, fault, hsplit, ?_, hout, rfl⟩
  rintro j hj ⟨fault', hout'⟩
  obtain ⟨word, hword⟩ := hbefore j hj
  have hrefused := (Operation.encode_link_error (hnone j (by simp [hj]))).2 ⟨fault', hout', rfl⟩
  have hgiven : (j.operation.link t).encode s = .ok word := mapError_ok.1 hword
  rw [hgiven] at hrefused
  cases hrefused

/-- A build succeeds if the program fits, misses no label and has a word for each instruction. -/
theorem build_ok {o : Output} :
    p.build s t = .ok o ↔
      p.size ≤ s.capacity ∧ ¬ p.MissesLabel t ∧ o.program = p.link t ∧ o.symbols = t ∧
        List.Forall₂ (fun i word => (i.operation.link t).encode s = .ok word)
          p.instructions o.words := by
  obtain ⟨program, symbols, words⟩ := o
  by_cases hsize : s.capacity < p.size
  · rw [build_of_lt hsize]
    simp only [reduceCtorEq, false_iff]
    omega
  · have hfits := Int.not_lt.1 hsize
    simp only [build_of_le hfits, bind_ok, resolve_ok, pure_ok]
    constructor
    · rintro ⟨_, ⟨hdefined, rfl⟩, words', hwords, h⟩
      cases h
      exact ⟨hfits, hdefined, rfl, rfl, mapM_encode_ok.1 hwords⟩
    · rintro ⟨_, hdefined, rfl, rfl, hwords⟩
      exact ⟨_, ⟨hdefined, rfl⟩, words, mapM_encode_ok.2 hwords, rfl⟩

/-- A build that fails reports the first fault of the first phase that finds one. -/
theorem fails_of_build {e : Diagnostic} (hindex : p.Indexed) (h : p.build s t = .error e) :
    p.Fails s t e := by
  -- One phase after the other, each with what the phases before it have shown.
  by_cases hsize : s.capacity < p.size
  · rw [build_of_lt hsize] at h
    cases h
    exact .size hsize
  · have hfits := Int.not_lt.1 hsize
    rw [build_of_le hfits, bind_error] at h
    rcases h with hresolve | ⟨q, hresolve, hencode⟩
    · obtain ⟨before, i, after, r, hsplit, hbefore, hmisses, rfl⟩ := resolve_error.1 hresolve
      refine .label hfits (hindex.first_of_append hsplit ?_ ⟨r, hmisses⟩) hmisses
      rintro j hj ⟨r', hr'⟩
      exact hbefore j hj r' hr'
    · obtain ⟨hdefined, rfl⟩ := resolve_ok.1 hresolve
      rcases bind_error.1 hencode with hencode | ⟨_, _, hpure⟩
      · obtain ⟨before, i, after, fault, hsplit, hbefore, hout, rfl⟩ :=
          mapM_encode_error hdefined hencode
        exact .range hfits hdefined (hindex.first_of_append hsplit hbefore ⟨fault, hout⟩) hout
      · cases hpure

/-- The word of an instruction stands at the same index. -/
theorem getElem?_words_of_build {o : Output} {n : Nat} {i : Instruction}
    (h : p.build s t = .ok o) (hi : p.instructions[n]? = some i) :
    ∃ word, o.words[n]? = some word ∧ (i.operation.link t).encode s = .ok word := by
  obtain ⟨_, _, _, _, hwords⟩ := build_ok.1 h
  exact forall₂_getElem? hwords hi

/-- Each word is the word of an instruction. -/
theorem exists_encode_of_build {o : Output} {word : Nat} (h : p.build s t = .ok o)
    (hword : word ∈ o.words) :
    ∃ i ∈ p.instructions, (i.operation.link t).encode s = .ok word := by
  obtain ⟨_, _, _, _, hwords⟩ := build_ok.1 h
  obtain ⟨n, hn⟩ := List.mem_iff_getElem?.1 hword
  obtain ⟨i, hi, hencode⟩ := forall₂_getElem? hwords.flip hn
  exact ⟨i, List.mem_of_getElem? hi, hencode⟩

theorem words_length_of_build (hbuild : p.build s t = .ok o) : o.words.length = p.size := by
  obtain ⟨_, _, _, _, hwords⟩ := build_ok.1 hbuild
  exact hwords.length_eq.symm

theorem not_exceedsRange_of_build {o : Output} (h : p.build s t = .ok o) :
    ¬ p.ExceedsRange s t := by
  obtain ⟨_, hdefined, _⟩ := build_ok.1 h
  rintro ⟨i, hi, fault, hout⟩
  obtain ⟨n, hn⟩ := List.mem_iff_getElem?.1 hi
  obtain ⟨word, _, hword⟩ := getElem?_words_of_build h hn
  have hnone : ∀ r, ¬ i.operation.Misses t r := fun r hr => hdefined ⟨i, hi, r, hr⟩
  rw [(Operation.encode_link_error hnone).2 ⟨fault, hout, rfl⟩] at hword
  cases hword

/-- The reports of a build are exactly those that `Fails` lists. -/
theorem build_error_iff {e : Diagnostic} (hindex : p.Indexed) :
    p.build s t = .error e ↔ p.Fails s t e := by
  refine ⟨fails_of_build hindex, ?_⟩
  intro hfails
  cases hbuild : p.build s t with
  | error e' => rw [(fails_of_build hindex hbuild).unique hindex hfails]
  | ok o =>
    obtain ⟨hfits, hdefined, _⟩ := build_ok.1 hbuild
    cases hfails with
    | size hsize => omega
    | label _ hfirst => exact absurd hfirst.exists_mem hdefined
    | range _ _ hfirst => exact absurd hfirst.exists_mem (not_exceedsRange_of_build hbuild)

theorem build_undefinedLabel_iff (hindex : p.Indexed) :
    (∃ name similar l k, p.build s t = .error ⟨.undefinedLabel name similar, l, k⟩) ↔
      p.size ≤ s.capacity ∧ p.MissesLabel t := by
  constructor
  · rintro ⟨name, similar, l, k, h⟩
    cases fails_of_build hindex h with
    | label hfits hfirst => exact ⟨hfits, hfirst.exists_mem⟩
  · rintro ⟨hfits, hmisses⟩
    cases hbuild : p.build s t with
    | ok o => exact absurd hmisses (build_ok.1 hbuild).2.1
    | error e =>
      cases fails_of_build hindex hbuild with
      | size hsize => omega
      | label => exact ⟨_, _, _, _, rfl⟩
      | range _ hdefined => exact absurd hmisses hdefined

theorem build_range_iff (hindex : p.Indexed) :
    (∃ fault l k, p.build s t = .error ⟨.range fault, l, k⟩) ↔
      p.size ≤ s.capacity ∧ ¬ p.MissesLabel t ∧ p.ExceedsRange s t := by
  constructor
  · rintro ⟨fault, l, k, h⟩
    cases fails_of_build hindex h with
    | range hfits hdefined hfirst => exact ⟨hfits, hdefined, hfirst.exists_mem⟩
  · rintro ⟨hfits, hdefined, hexceeds⟩
    cases hbuild : p.build s t with
    | ok o => exact absurd hexceeds (not_exceedsRange_of_build hbuild)
    | error e =>
      cases fails_of_build hindex hbuild with
      | size hsize => omega
      | label _ hfirst => exact absurd hfirst.exists_mem hdefined
      | range => exact ⟨_, _, _, rfl⟩

theorem exists_build_iff (hindex : p.Indexed) :
    (∃ o, p.build s t = .ok o ∧ o.words.length = p.size) ↔
      p.size ≤ s.capacity ∧ ¬ p.MissesLabel t ∧ ¬ p.ExceedsRange s t := by
  constructor
  · rintro ⟨o, h, _⟩
    obtain ⟨hfits, hdefined, _⟩ := build_ok.1 h
    exact ⟨hfits, hdefined, not_exceedsRange_of_build h⟩
  · rintro ⟨hfits, hdefined, hrange⟩
    cases hbuild : p.build s t with
    | ok o => exact ⟨o, rfl, words_length_of_build hbuild⟩
    | error e =>
      cases fails_of_build hindex hbuild with
      | size hsize => omega
      | label _ hfirst => exact absurd hfirst.exists_mem hdefined
      | range _ _ hfirst => exact absurd hfirst.exists_mem hrange

end Program

end Risc16
