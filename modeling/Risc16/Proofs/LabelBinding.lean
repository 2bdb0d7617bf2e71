import Risc16.Proofs.RoundTrip

/-!
# Binding of labels

A label stands for one address, from its declaration to the words of the jumps that name it. The
reader fixes the address when it comes to the declaration, with only the lines before it in view;
jumps are looked up when the program is complete, so it does not matter on which side of the
declaration they stand.

Results:
1. `Program.lowByte_of_build`: the word of a jump holds the address of its label.
2. `Draft.labels_bind`: addresses and labels of a source, and the words of its jumps.
-/

namespace Risc16

open Outcome

/-- The word of a jump holds the address that the table gives to the label. -/
theorem Program.lowByte_of_build {s : Settings} {t : SymbolTable} {p : Program} {o : Output}
    {n : Nat} {i : Instruction} {symbol : Symbol} {place : Location} (hvalid : s.isValid = true)
    (hbuild : p.build s t = .ok o) (hi : p.instructions[n]? = some i)
    (hlabel : ⟨.label symbol.name, place⟩ ∈ i.operation.operands) (hsymbol : symbol ∈ t.symbols) :
    ∃ word, o.words[n]? = some word ∧ (lowByte word : Int) = symbol.address := by
  obtain ⟨word, hword, hreads⟩ := readsBack_of_build hvalid hbuild hi
  refine ⟨word, hword, ?_⟩
  have hlink : (Target.label symbol.name).link t = .address symbol.address := by
    simp only [Target.link, SymbolTable.find?_eq_some hsymbol]
  -- The label is the target, so after linking the target is its address.
  have htarget := i.operation.link_target? t
  rw [Operation.target?_eq_label.2 hlabel] at htarget
  exact hreads.lowByte_eq htarget hlink

/-- Labels of a source and their addresses.

Instructions stand at their indices, on ascending lines. A label has as its address the number of
instructions on the lines before its declaration, and the table lists the labels just as the program
does. In the words of a build, a jump has the address of its label in the low byte, wherever the
label is declared. -/
theorem Draft.labels_bind {file : String} {source : List Char} {draft : Draft}
    (hsource : Draft.ofSource file source = .ok draft) :
    draft.program.PlacedBy (SourceLine.ofSource file source) ∧
    (draft.program.instructions.map fun i => i.location.line).Pairwise (· < ·) ∧
    draft.symbols.symbols = draft.program.labels ∧
    ∀ (s : Settings) (o : Output), s.isValid = true →
      draft.program.build s draft.symbols = .ok o →
      ∀ (n : Nat) (i : Instruction) (name : String) (place : Location),
        draft.program.instructions[n]? = some i → ⟨.label name, place⟩ ∈ i.operation.operands →
        (∃ symbol ∈ draft.program.labels, symbol.name = name) ∧
        ∀ symbol ∈ draft.program.labels, symbol.name = name →
          ∃ word, o.words[n]? = some word ∧ (lowByte word : Int) = symbol.address := by
  obtain ⟨_, hmatched, hreferences⟩ := Draft.ofLines_ok.1 hsource
  have hascend := (SourceLine.numberFrom_ascend file 1 (Text.splitLines source)).2
  refine ⟨Draft.ofLines_placed hsource, Draft.ofLines_lines_ascend hsource hascend, hmatched, ?_⟩
  intro s o hvalid hbuild n i name place hi hlabel
  constructor
  · have hname := hreferences (i, ⟨name, place⟩)
      (Program.mem_references.2 ⟨List.mem_of_getElem? hi, hlabel⟩)
    rw [SymbolTable.names, hmatched] at hname
    exact List.mem_map.1 hname
  · rintro symbol hsymbol rfl
    rw [← hmatched] at hsymbol
    exact Program.lowByte_of_build hvalid hbuild hi hlabel hsymbol

/-- A jump forward to a label at the end of the program, before a jump back to the start. -/
theorem Draft.labels_bind_both_ways :
    ∃ draft o, Draft.ofSource "a" "top: next:\nj end\njz r1, top\nend:".toList = .ok draft ∧
      draft.program.build {} draft.symbols = .ok o ∧
      (∃ word, o.words[0]? = some word ∧ (lowByte word : Int) = 2) ∧
      ∃ word, o.words[1]? = some word ∧ (lowByte word : Int) = 0 := by
  let forward : Instruction := ⟨.jump ⟨.label "end", "a", 2, 3⟩, 0, ⟨"a", 2, 1⟩, "j end"⟩
  let backward : Instruction :=
    ⟨.branch .zero ⟨⟨1, by decide⟩, "a", 3, 4⟩ ⟨.label "top", "a", 3, 8⟩, 1, ⟨"a", 3, 1⟩,
      "jz r1, top"⟩
  let first : Symbol := ⟨"top", 0, some ⟨"a", 1, 1⟩⟩
  let last : Symbol := ⟨"end", 2, some ⟨"a", 4, 1⟩⟩
  have hrun : (Draft.ofSource "a" "top: next:\nj end\njz r1, top\nend:".toList >>= fun draft =>
      (draft.program.build {} draft.symbols).map fun _ => draft.program) =
      .ok ⟨[forward, backward], [first, ⟨"next", 0, some ⟨"a", 1, 6⟩⟩, last]⟩ := by
    decide +kernel
  obtain ⟨draft, hsource, hdraft⟩ := bind_ok.1 hrun
  obtain ⟨o, hbuild, hprogram⟩ := map_ok.1 hdraft
  obtain ⟨_, _, _, hwords⟩ := Draft.labels_bind hsource
  have hforward := hwords {} o (by decide) hbuild 0 forward "end" ⟨"a", 2, 3⟩
    (by rw [hprogram]; rfl) (by decide)
  have hbackward := hwords {} o (by decide) hbuild 1 backward "top" ⟨"a", 3, 8⟩
    (by rw [hprogram]; rfl) (by decide)
  exact ⟨draft, o, hsource, hbuild, hforward.2 last (by simp [hprogram]) rfl,
    hbackward.2 first (by simp [hprogram]) rfl⟩

end Risc16
