import Risc16.Session
import Risc16.Proofs.BuildOutcome
import Risc16.Proofs.WordLayout

/-!
# Round trip of the assembled code

The bytes of a build tell the program back: they hold the words, and each word decodes to its
instruction with the labels replaced. The table may be any, so the addresses in it need not have
anything to do with the program.

Results:
1. `Program.readsBack_of_build`: the word at an index tells the instruction there.
2. `Program.code_of_build`: words of a build have 16 bits, so that there are bytes.
3. `Draft.code_reads_back`: the round trip from a source through its bytes.
-/

namespace Risc16

open Outcome

namespace Program

variable {s : Settings} {t : SymbolTable} {p : Program} {o : Output}

theorem readsBack_of_build {n : Nat} {i : Instruction} (hvalid : s.isValid = true)
    (hbuild : p.build s t = .ok o) (hi : p.instructions[n]? = some i) :
    ∃ word, o.words[n]? = some word ∧ (i.operation.link t).ReadsBack word := by
  obtain ⟨word, hword, hencode⟩ := getElem?_words_of_build hbuild hi
  exact ⟨word, hword, Operation.encode_readsBack hvalid hencode⟩

theorem word_le_of_build (hvalid : s.isValid = true) (hbuild : p.build s t = .ok o) :
    ∀ word ∈ o.words, word ≤ wordMax := by
  intro word hword
  obtain ⟨i, _, hencode⟩ := exists_encode_of_build hbuild hword
  exact (Operation.encode_readsBack hvalid hencode).word_le

theorem code_of_build (hvalid : s.isValid = true) (hbuild : p.build s t = .ok o) :
    o.code = .ok (o.words.flatMap wordBytesOf) := by
  rw [Output.code, Output.image, imageOf_ok (word_le_of_build hvalid hbuild)]
  rfl

end Program

/-- The code of a source has two bytes for each instruction. They hold the words of the build, and
each word tells the instruction at its address, with the label replaced. -/
theorem Draft.code_reads_back {file : String} {source : List Char} {draft : Draft} {s : Settings}
    {t : SymbolTable} {o : Output} (hsource : Draft.ofSource file source = .ok draft)
    (hvalid : s.isValid = true) (hbuild : draft.program.build s t = .ok o) :
    ∃ bytes resolved, o.code = .ok bytes ∧ bytes.length = 2 * draft.program.size ∧
      wordsOf bytes = o.words ∧ draft.program.resolve t = .ok resolved ∧
      resolved.size = draft.program.size ∧
      ∀ (n : Nat) (i : Instruction), resolved.instructions[n]? = some i →
        i.address = n ∧ ∃ word, o.words[n]? = some word ∧ i.operation.ReadsBack word := by
  obtain ⟨_, hdefined, _⟩ := Program.build_ok.1 hbuild
  refine ⟨o.words.flatMap wordBytesOf, draft.program.link t, Program.code_of_build hvalid hbuild,
    ?_, wordsOf_flatMap_wordBytesOf (Program.word_le_of_build hvalid hbuild),
    Program.resolve_ok.2 ⟨hdefined, rfl⟩, Program.link_size t _, ?_⟩
  · rw [length_flatMap_wordBytesOf, Program.words_length_of_build hbuild]
  · intro n i hi
    have hlinked : (draft.program.instructions.map (Instruction.link t))[n]? = some i := hi
    rw [List.getElem?_map, Option.map_eq_some_iff] at hlinked
    obtain ⟨j, hj, rfl⟩ := hlinked
    exact ⟨(Draft.ofLines_placed hsource).indexed n j hj,
      Program.readsBack_of_build hvalid hbuild hj⟩

/-- A jump to a label that another program declares, and a negative immediate, read back. -/
theorem Draft.code_reads_back_foreign_table :
    ∃ draft o, Draft.ofSource "a" "jz r2, home\nhome: ldi r1, -1".toList = .ok draft ∧
      draft.program.build {} ⟨[⟨"home", 7, none⟩], by decide⟩ = .ok o ∧
      o.words = [0xd207, 0x21ff] ∧
      ∃ bytes resolved, o.code = .ok bytes ∧ wordsOf bytes = o.words ∧
        draft.program.resolve ⟨[⟨"home", 7, none⟩], by decide⟩ = .ok resolved ∧
        ∀ (n : Nat) (i : Instruction), resolved.instructions[n]? = some i →
          ∃ word, o.words[n]? = some word ∧ i.operation.ReadsBack word := by
  let branch : Instruction :=
    ⟨.branch .zero ⟨⟨2, by decide⟩, "a", 1, 4⟩ ⟨.label "home", "a", 1, 8⟩, 0, ⟨"a", 1, 1⟩,
      "jz r2, home"⟩
  let load : Instruction :=
    ⟨.ldi ⟨⟨1, by decide⟩, "a", 2, 11⟩ ⟨-1, "a", 2, 15⟩, 1, ⟨"a", 2, 7⟩, "home: ldi r1, -1"⟩
  have hread : (Draft.ofSource "a" "jz r2, home\nhome: ldi r1, -1".toList).map Draft.program =
      .ok ⟨[branch, load], [⟨"home", 1, some ⟨"a", 2, 1⟩⟩]⟩ := by decide +kernel
  obtain ⟨draft, hsource, hprogram⟩ := map_ok.1 hread
  have hwords : (draft.program.build {} ⟨[⟨"home", 7, none⟩], by decide⟩).map Output.words =
      .ok [0xd207, 0x21ff] := by
    rw [hprogram]
    decide +kernel
  obtain ⟨o, hbuild, hwords⟩ := map_ok.1 hwords
  obtain ⟨bytes, resolved, hcode, _, hbytes, hresolve, _, hreads⟩ :=
    Draft.code_reads_back hsource (by decide) hbuild
  exact ⟨draft, o, hsource, hbuild, hwords, bytes, resolved, hcode, hbytes, hresolve,
    fun n i hi => (hreads n i hi).2⟩

end Risc16
