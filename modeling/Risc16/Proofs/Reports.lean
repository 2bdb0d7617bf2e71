import Risc16.Proofs.CheckedRun
import Risc16.Proofs.Columns
import Risc16.Proofs.FaultPlace
import Risc16.Proofs.KeptOutput

/-!
# Reports read back

The listing and the symbol file are text for the eye, but nothing is lost in them. Each row of a
listing tells the address, the word, the source line and the source text of its instruction, and
each row of a label its name and its address. The text of a row is the user's own and may hold any
character but a line feed, so the rows can always be told apart. Names hold no white space and no
marks, so they end where their column does.

Results:
1. `Output.Reportable`: what the reports rest on. `Output.reportable_of_build`: it is true of every
   output of a source.
2. `Output.Reportable.splitLines_listing`, `Output.Reportable.readListing?_listing`: the listing.
3. `Session.listing_reads_back`: the listing of a source, and two sources with the same listing.
4. `Session.symbolFile_reads_back`: the symbol file of a source.
-/

namespace Risc16

open Outcome

/-! ## What the reports rest on -/

/-- What the reports of an output rest on.

* `whole`, `indexed`, `words_le`: there is a word of 16 bits for each instruction, and instructions
  stand at their addresses.
* `line_nonneg`, `feed_notMem`: instructions come from numbered lines.
* `isName`, `address_nonneg`: labels have names and stand at addresses. -/
structure Output.Reportable (o : Output) : Prop where
  whole : o.IsWhole
  indexed : o.program.Indexed
  words_le : ∀ word ∈ o.words, word ≤ wordMax
  line_nonneg : ∀ i ∈ o.program.instructions, 0 ≤ i.location.line
  feed_notMem : ∀ i ∈ o.program.instructions, '\n' ∉ i.sourceLine.toList
  isName : ∀ symbol ∈ o.symbols.symbols, Word.isName symbol.name.toList = true
  address_nonneg : ∀ symbol ∈ o.symbols.symbols, 0 ≤ symbol.address

theorem Text.mem_of_mem_dropEndWhile {p : Char → Bool} {text : List Char} {c : Char}
    (h : c ∈ dropEndWhile p text) : c ∈ text :=
  List.mem_reverse.1 ((List.dropWhile_sublist p).mem (List.mem_reverse.1 h))

theorem Instruction.mem_sourceLine_of_mem_text {i : Instruction} {c : Char}
    (h : c ∈ i.text.toList) : c ∈ i.sourceLine.toList := by
  rw [text, String.toList_ofList, Text.trim, Text.trimBy] at h
  have hdropped := (List.dropWhile_sublist _).mem (Text.mem_of_mem_dropEndWhile h)
  exact (List.takeWhile_sublist _).mem hdropped

theorem SourceLine.feed_notMem {file : String} {source : List Char} {k : Nat} {line : SourceLine}
    (h : (ofSource file source)[k]? = some line) : '\n' ∉ line.text := by
  obtain ⟨raw, hraw, rfl⟩ := numberFrom_getElem? h
  intro hfeed
  exact Text.notMem_of_mem_splitOn (List.mem_of_getElem? hraw)
    (Text.mem_of_mem_dropEndWhile hfeed)

theorem SourceLine.isName_of_labelDef {line : SourceLine} {name : String} {place : Location}
    (h : ⟨.labelDef name, place⟩ ∈ line.run.tokens) : Word.isName name.toList = true := by
  obtain ⟨leading, word, hspells, _⟩ := holds_token h (by simp) (by simp)
  cases hspells with
  | labelDef hname =>
    rw [String.toList_ofList]
    exact hname

theorem Word.notMem_of_isName {word : List Char} {c : Char} (h : isName word = true)
    (hc : isNameChar c = false) : c ∉ word := by
  intro hmem
  rw [isNameChar_of_isName h c hmem] at hc
  cases hc

namespace Output

section

variable {file : String} {source : List Char} {draft : Draft} {s : Settings} {o : Output}

/-- An instruction of an output stands on a line of the source. -/
theorem exists_line_of_build (hsource : Draft.ofSource file source = .ok draft)
    (hbuild : draft.program.build s draft.symbols = .ok o) {i : Instruction}
    (hi : i ∈ o.program.instructions) :
    ∃ (k : Nat) (line : SourceLine), (SourceLine.ofSource file source)[k]? = some line ∧
      i.location.line = (k + 1 : Nat) ∧ i.sourceLine = String.ofList line.text := by
  obtain ⟨_, _, hprogram, _⟩ := Program.build_ok.1 hbuild
  rw [hprogram] at hi
  obtain ⟨j, hj, rfl⟩ := List.mem_map.1 hi
  obtain ⟨k, line, hline, hstands⟩ :=
    Draft.readLines_standsOn (Draft.readLines_of_ofLines hsource) hj
  have hnumber : j.location.line = (k + 1 : Nat) :=
    hstands.line_eq.trans (SourceLine.number_of_getElem? hline)
  exact ⟨k, line, hline, hnumber, hstands.2⟩

theorem reportable_of_build (hvalid : s.isValid = true)
    (hsource : Draft.ofSource file source = .ok draft)
    (hbuild : draft.program.build s draft.symbols = .ok o) : o.Reportable := by
  obtain ⟨_, _, hprogram, hsymbols, _⟩ := Program.build_ok.1 hbuild
  obtain ⟨_, hmatched, _⟩ := Draft.ofLines_ok.1 hsource
  have hplaced := Draft.ofLines_placed hsource
  have hlabel : ∀ symbol ∈ o.symbols.symbols, Word.isName symbol.name.toList = true ∧
      0 ≤ symbol.address := by
    intro symbol hsymbol
    rw [hsymbols, hmatched] at hsymbol
    obtain ⟨k, line, name, place, _, htoken, rfl⟩ := (hplaced.label symbol).1 hsymbol
    exact ⟨SourceLine.isName_of_labelDef htoken, Int.natCast_nonneg _⟩
  constructor
  case whole => exact (isWhole_of_build hbuild).2.2
  case indexed =>
    intro n i hi
    rw [hprogram] at hi
    have hlinked : (draft.program.instructions.map (Instruction.link draft.symbols))[n]? = some i :=
      hi
    rw [List.getElem?_map, Option.map_eq_some_iff] at hlinked
    obtain ⟨j, hj, rfl⟩ := hlinked
    exact hplaced.indexed n j hj
  case words_le => exact Program.word_le_of_build hvalid hbuild
  case line_nonneg =>
    intro i hi
    obtain ⟨k, _, _, hnumber, _⟩ := exists_line_of_build hsource hbuild hi
    rw [hnumber]
    exact Int.natCast_nonneg _
  case feed_notMem =>
    intro i hi
    obtain ⟨k, line, hline, _, htext⟩ := exists_line_of_build hsource hbuild hi
    rw [htext, String.toList_ofList]
    exact SourceLine.feed_notMem hline
  case isName => exact fun symbol hsymbol => (hlabel symbol hsymbol).1
  case address_nonneg => exact fun symbol hsymbol => (hlabel symbol hsymbol).2

end

/-! ## The lines of the reports -/

/-- The lines of a listing above its instructions. -/
def heading : List (List Char) :=
  ["BRISC Assembler Listing".toList, List.replicate 60 '=', [], "Addr  Code  Line  Source".toList,
    List.replicate 60 '-']

/-- The lines of a listing above its labels. -/
def labelHeading : List (List Char) :=
  ["Symbol Table".toList, List.replicate 30 '-']

/-- The lines of a symbol file above its labels. -/
def remarks : List (List Char) :=
  ["# Symbol table".toList, "# Generated by brisc-asm".toList]

/-- The rows of the instructions in the listing. -/
def instructionRows (o : Output) : List (List Char) :=
  (o.program.instructions.zip o.words).map fun row => (instructionRow row.1 row.2).toList

/-- The rows of the labels in the listing. -/
def labelRows (o : Output) : List (List Char) :=
  o.symbols.sortedAddresses.map fun row => (symbolRow row.1 row.2).toList

/-- The lines of the labels in the symbol file. -/
def labelLines (o : Output) : List (List Char) :=
  o.symbols.sortedAddresses.map fun row => row.1.toList ++ ' ' :: '$' ::
    (Text.hexText 2 row.2).toList

theorem map_toList_listingLines (o : Output) :
    o.listingLines.map String.toList =
      heading ++ o.instructionRows ++ [[]] ++ labelHeading ++ o.labelRows := by
  unfold listingLines instructionRows labelRows
  simp only [List.map_append, List.map_map, List.map_cons, List.map_nil, ruler,
    String.toList_ofList, List.append_assoc]
  rfl

theorem map_toList_symbolFileLines (o : Output) :
    o.symbolFileLines.map String.toList = remarks ++ o.labelLines := by
  have hmark : " $".toList = [' ', '$'] := rfl
  unfold symbolFileLines labelLines
  rw [List.map_append, List.map_map]
  congr 1
  apply List.map_congr_left
  intro row _
  simp only [Function.comp_apply, String.toList_append, toString, hmark, List.append_assoc,
    List.cons_append, List.nil_append]

theorem ne_nil_of_mem_instructionRows {o : Output} {row : List Char}
    (h : row ∈ o.instructionRows) : row ≠ [] := by
  obtain ⟨⟨i, word⟩, _, rfl⟩ := List.mem_map.1 h
  obtain ⟨gap, htext⟩ := toList_instructionRow i word
  rw [htext]
  exact List.cons_ne_nil _ _

theorem feed_notMem_heading :
    ∀ line ∈ heading ++ [[]] ++ labelHeading ++ remarks, '\n' ∉ line := by
  have hall :
      (heading ++ [[]] ++ labelHeading ++ remarks).all (fun line => '\n' ∉ line) = true := by
    decide +kernel
  exact fun line hline => of_decide_eq_true (List.all_eq_true.1 hall line hline)

namespace Reportable

variable {o : Output}

theorem of_mem_sortedAddresses (h : o.Reportable) {row : String × Int}
    (hrow : row ∈ o.symbols.sortedAddresses) :
    Word.isName row.1.toList = true ∧ ∃ address : Nat, row.2 = address := by
  obtain ⟨symbol, hsymbol, rfl⟩ :=
    List.mem_map.1 ((SymbolTable.sortedAddresses_perm o.symbols).mem_iff.1 hrow)
  exact ⟨h.isName symbol hsymbol, Int.eq_ofNat_of_zero_le (h.address_nonneg symbol hsymbol)⟩

theorem feed_notMem_instructionRows (h : o.Reportable) :
    ∀ row ∈ o.instructionRows, '\n' ∉ row := by
  intro row hrow
  obtain ⟨⟨i, word⟩, hpair, rfl⟩ := List.mem_map.1 hrow
  have hi : i ∈ o.program.instructions := (List.of_mem_zip hpair).1
  obtain ⟨line, hline⟩ := Int.eq_ofNat_of_zero_le (h.line_nonneg i hi)
  obtain ⟨gap, htext⟩ := toList_instructionRow i word
  have haddress := notMem_hexText 2 i.address (c := '\n') rfl
  have hword := notMem_hexText 4 word (c := '\n') rfl
  have hdigits := notMem_toDigits line (c := '\n') rfl
  have hsource : '\n' ∉ i.text.toList :=
    fun hmem => h.feed_notMem i hi (Instruction.mem_sourceLine_of_mem_text hmem)
  rw [htext, hline, toList_toString]
  simp [haddress, hword, hdigits, hsource]

theorem feed_notMem_labelRows (h : o.Reportable) : ∀ row ∈ o.labelRows, '\n' ∉ row := by
  intro row hrow
  obtain ⟨⟨name, address⟩, hmem, rfl⟩ := List.mem_map.1 hrow
  obtain ⟨hname, address, rfl⟩ := h.of_mem_sortedAddresses hmem
  obtain ⟨gap, htext⟩ := toList_symbolRow name address
  have hfeed : '\n' ∉ name.toList := Word.notMem_of_isName hname rfl
  have haddress := notMem_hexText 2 address (c := '\n') rfl
  rw [htext]
  simp [hfeed, haddress]

theorem feed_notMem_labelLines (h : o.Reportable) : ∀ row ∈ o.labelLines, '\n' ∉ row := by
  intro row hrow
  obtain ⟨⟨name, address⟩, hmem, rfl⟩ := List.mem_map.1 hrow
  obtain ⟨hname, address, rfl⟩ := h.of_mem_sortedAddresses hmem
  have hfeed : '\n' ∉ name.toList := Word.notMem_of_isName hname rfl
  have haddress := notMem_hexText 2 address (c := '\n') rfl
  simp [hfeed, haddress]

/-- The listing, cut at its line feeds. -/
theorem splitLines_listing (h : o.Reportable) :
    Text.splitLines o.listing.toList =
      heading ++ o.instructionRows ++ [[]] ++ labelHeading ++ o.labelRows ++ [[]] := by
  have hheading := feed_notMem_heading
  have hlines : ∀ line ∈ o.listingLines.map String.toList, '\n' ∉ line := by
    rw [map_toList_listingLines]
    simp only [List.forall_mem_append] at hheading ⊢
    exact ⟨⟨⟨⟨hheading.1.1.1, h.feed_notMem_instructionRows⟩, hheading.1.1.2⟩, hheading.1.2⟩,
      h.feed_notMem_labelRows⟩
  rw [listing, splitLines_ofLines fun line hline => hlines _ (List.mem_map_of_mem hline),
    map_toList_listingLines]

/-- The symbol file, cut at its line feeds. -/
theorem splitLines_symbolFile (h : o.Reportable) :
    Text.splitLines o.symbolFile.toList = remarks ++ o.labelLines ++ [[]] := by
  have hlines : ∀ line ∈ o.symbolFileLines.map String.toList, '\n' ∉ line := by
    rw [map_toList_symbolFileLines]
    exact List.forall_mem_append.2
      ⟨(List.forall_mem_append.1 feed_notMem_heading).2, h.feed_notMem_labelLines⟩
  rw [symbolFile, splitLines_ofLines fun line hline => hlines _ (List.mem_map_of_mem hline),
    map_toList_symbolFileLines]

/-! ## The reports as data -/

theorem readInstructionRow?_of_mem (h : o.Reportable) {row : Instruction × Nat}
    (hrow : row ∈ o.program.instructions.zip o.words) :
    readInstructionRow? (instructionRow row.1 row.2).toList =
      some ⟨row.1.address, row.2, row.1.location.line.toNat, row.1.text⟩ := by
  obtain ⟨hi, hword⟩ := List.of_mem_zip hrow
  exact readInstructionRow?_instructionRow (Int.toNat_of_nonneg (h.line_nonneg _ hi)).symm
    (h.words_le _ hword)

theorem mapM_labelRows (h : o.Reportable) :
    o.labelRows.mapM readSymbolRow? = some o.symbols.sortedAddresses := by
  have hrow : ∀ row ∈ o.symbols.sortedAddresses,
      readSymbolRow? (symbolRow row.1 row.2).toList = some (id row) := by
    rintro ⟨name, address⟩ hmem
    obtain ⟨hname, address, rfl⟩ := h.of_mem_sortedAddresses hmem
    exact readSymbolRow?_symbolRow (Word.notMem_of_isName hname rfl) address
  rw [labelRows, mapM_rows hrow, List.map_id]

/-- The listing as data. -/
theorem readListing?_listing (h : o.Reportable) :
    readListing? o.listing.toList =
      some ⟨(o.program.instructions.zip o.words).map fun row =>
        ⟨row.1.address, row.2, row.1.location.line.toNat, row.1.text⟩,
        o.symbols.sortedAddresses⟩ := by
  have hrows : ∀ row ∈ o.instructionRows, decide (row ≠ []) = true :=
    fun row hrow => decide_eq_true (ne_nil_of_mem_instructionRows hrow)
  have hended : (endedLines o.listing.toList).drop 5 =
      o.instructionRows ++ [] :: (labelHeading ++ o.labelRows) := by
    rw [endedLines, h.splitLines_listing, List.dropLast_concat]
    simp only [List.append_assoc, List.singleton_append]
    rfl
  have hinstructions : o.instructionRows.mapM readInstructionRow? = some _ :=
    mapM_rows fun row hrow => h.readInstructionRow?_of_mem hrow
  have htail : ([] :: (labelHeading ++ o.labelRows)).drop 3 = o.labelRows := rfl
  rw [readListing?, hended, List.takeWhile_append_of_pos hrows, List.dropWhile_append_of_pos hrows,
    List.takeWhile_cons_of_neg (by simp), List.dropWhile_cons_of_neg (by simp), List.append_nil,
    hinstructions, htail, h.mapM_labelRows]
  rfl

/-- A line of the symbol file is a name, a single space and an address, and is no remark. -/
theorem of_mem_labelLines (h : o.Reportable) {line : List Char} (hline : line ∈ o.labelLines) :
    line.count ' ' = 1 ∧ line.head? ≠ some '#' := by
  obtain ⟨⟨name, address⟩, hmem, rfl⟩ := List.mem_map.1 hline
  obtain ⟨hname, address, rfl⟩ := h.of_mem_sortedAddresses hmem
  have hspace : ' ' ∉ name.toList := Word.notMem_of_isName hname rfl
  have hhash : '#' ∉ name.toList := Word.notMem_of_isName hname rfl
  have haddress := notMem_hexText 2 address (c := ' ') rfl
  constructor
  · rw [List.count_append, List.count_eq_zero.2 hspace, List.count_cons_self,
      List.count_cons_of_ne (by decide), List.count_eq_zero.2 haddress]
  · cases htext : name.toList with
    | nil => simp
    | cons c rest =>
      rw [htext] at hhash
      intro hhead
      exact hhash (Option.some.inj hhead ▸ List.mem_cons_self)

theorem mapM_labelLines (h : o.Reportable) :
    o.labelLines.mapM readSymbolLine? = some o.symbols.sortedAddresses := by
  have hline : ∀ row ∈ o.symbols.sortedAddresses,
      readSymbolLine? (row.1.toList ++ ' ' :: '$' :: (Text.hexText 2 row.2).toList) =
        some (id row) := by
    rintro ⟨name, address⟩ hmem
    obtain ⟨hname, address, rfl⟩ := h.of_mem_sortedAddresses hmem
    exact readSymbolLine?_append (Word.notMem_of_isName hname rfl) address
  rw [labelLines, mapM_rows hline, List.map_id]

/-- The symbol file as data. -/
theorem readSymbolFile?_symbolFile (h : o.Reportable) :
    readSymbolFile? o.symbolFile.toList = some o.symbols.sortedAddresses := by
  have hremarks : remarks.filter (fun line => line.head? ≠ some '#') = [] := by decide
  have hlabels : o.labelLines.filter (fun line => line.head? ≠ some '#') = o.labelLines :=
    List.filter_eq_self.2 fun line hline => decide_eq_true (h.of_mem_labelLines hline).2
  rw [readSymbolFile?, endedLines, h.splitLines_symbolFile, List.dropLast_concat,
    List.filter_append, hremarks, hlabels, List.nil_append, h.mapM_labelLines]

/-- The row of an instruction tells its address, its word, and where it comes from. -/
theorem exists_instructionRow (h : o.Reportable) {n : Nat} {i : Instruction}
    (hi : o.program.instructions[n]? = some i) :
    ∃ word row, o.words[n]? = some word ∧ o.instructionRows[n]? = some row ∧
      readInstructionRow? row = some ⟨n, word, i.location.line.toNat, i.text⟩ := by
  obtain ⟨word, hword, hzip⟩ := h.whole.exists_zip hi
  have hread := h.readInstructionRow?_of_mem (List.mem_of_getElem? hzip)
  rw [h.indexed n i hi] at hread
  refine ⟨word, _, hword, ?_, hread⟩
  rw [instructionRows, List.getElem?_map, hzip]
  rfl

/-- Outputs with the same listing have the same words and the same labels. -/
theorem eq_of_listing {o' : Output} (h : o.Reportable) (h' : o'.Reportable)
    (heq : o'.listing = o.listing) :
    o'.words = o.words ∧ o'.symbols.sortedAddresses = o.symbols.sortedAddresses := by
  have hread := h'.readListing?_listing
  rw [heq, h.readListing?_listing, Option.some_inj, Listing.mk.injEq] at hread
  obtain ⟨hrows, hlabels⟩ := hread
  have hwords := congrArg (List.map InstructionRow.word) hrows
  rw [List.map_map, List.map_map] at hwords
  have hsnd : ∀ {o : Output}, o.Reportable →
      (o.program.instructions.zip o.words).map Prod.snd = o.words :=
    fun h => List.map_snd_zip (Nat.le_of_eq h.whole.words_length)
  exact ⟨((hsnd h).symm.trans (hwords.trans (hsnd h'))).symm, hlabels.symm⟩

end Reportable

theorem length_instructionRows {o : Output} (h : o.IsWhole) :
    o.instructionRows.length = o.program.size := by
  rw [instructionRows, List.length_map, h.length_zip]

end Output

/-! ## The reports of a source -/

namespace Session

variable {session : Session} {file : String} {source : List Char} {bytes : List UInt8}

/-- What stands behind the output of an assembly that succeeds. -/
theorem exists_build_of_assemble (hvalid : session.settings.isValid = true)
    (hbytes : (session.assemble file source).result = .ok bytes) :
    ∃ draft, Draft.ofSource file source = .ok draft ∧
      draft.program.build session.settings draft.symbols =
        .ok (session.assemble file source).session.output ∧
      bytes = (session.assemble file source).session.output.words.flatMap wordBytesOf := by
  rw [assemble_result_of_isValid hvalid] at hbytes
  obtain ⟨o, ho, rfl⟩ := map_ok.1 (mapError_ok.1 hbytes)
  rw [assemble_output, ho]
  rw [Assembly.ofSource_result] at ho
  obtain ⟨draft, hsource, hbuild⟩ := bind_ok.1 ho
  exact ⟨draft, hsource, hbuild, rfl⟩

theorem reportable_of_assemble (hvalid : session.settings.isValid = true)
    (hbytes : (session.assemble file source).result = .ok bytes) :
    (session.assemble file source).session.output.Reportable := by
  obtain ⟨draft, hsource, hbuild, _⟩ := exists_build_of_assemble hvalid hbytes
  exact Output.reportable_of_build hvalid hsource hbuild

/-- The listing of a source is its heading, a row for each instruction, an empty line, the heading
of the labels and a row for each of them. A row tells the address, the word, the line and the text
of its instruction, and the rows of the labels tell all names with their addresses, by name. So
sources with the same listing have the same code and the same labels. -/
theorem listing_reads_back (hvalid : session.settings.isValid = true)
    (hbytes : (session.assemble file source).result = .ok bytes) :
    let o := (session.assemble file source).session.output
    (∃ rows labelRows labels,
      Text.splitLines o.listing.toList =
        Output.heading ++ rows ++ [[]] ++ Output.labelHeading ++ labelRows ++ [[]] ∧
      Output.heading.length = 5 ∧ Output.labelHeading.length = 2 ∧
      rows.length = o.program.size ∧ o.words.length = o.program.size ∧
      (∀ (n : Nat) (i : Instruction), o.program.instructions[n]? = some i →
        ∃ (row : List Char) (word k : Nat) (line : SourceLine),
          rows[n]? = some row ∧ row ≠ [] ∧ o.words[n]? = some word ∧
          (SourceLine.ofSource file source)[k]? = some line ∧
          i.location.line = (k + 1 : Nat) ∧ i.sourceLine = String.ofList line.text ∧
          Output.readInstructionRow? row =
            some ⟨n, word, k + 1, String.ofList (Text.trim (withoutComment line.text))⟩) ∧
      labelRows.length = o.symbols.size ∧
      labelRows.mapM Output.readSymbolRow? = some labels ∧
      labels.Perm o.symbols.addresses ∧ (labels.map Prod.fst).Pairwise (· < ·)) ∧
    ∀ (session' : Session) (file' : String) (source' : List Char) (bytes' : List UInt8),
      session'.settings.isValid = true →
      (session'.assemble file' source').result = .ok bytes' →
      (session'.assemble file' source').session.output.listing = o.listing →
      bytes' = bytes ∧
        (session'.assemble file' source').session.output.symbols.addresses.Perm
          o.symbols.addresses := by
  intro o
  obtain ⟨draft, hsource, hbuild, hcode⟩ := exists_build_of_assemble hvalid hbytes
  have hreport : o.Reportable := Output.reportable_of_build hvalid hsource hbuild
  have hperm := o.symbols.sortedAddresses_perm
  refine ⟨⟨o.instructionRows, o.labelRows, o.symbols.sortedAddresses, hreport.splitLines_listing,
    rfl, rfl, Output.length_instructionRows hreport.whole, hreport.whole.words_length, ?_, ?_,
    hreport.mapM_labelRows, hperm, o.symbols.pairwise_sortedAddresses⟩, ?_⟩
  · intro n i hi
    obtain ⟨word, row, hword, hrow, hread⟩ := hreport.exists_instructionRow hi
    obtain ⟨k, line, hline, hnumber, htext⟩ :=
      Output.exists_line_of_build hsource hbuild (List.mem_of_getElem? hi)
    rw [hnumber, Int.toNat_natCast, Instruction.text, htext, String.toList_ofList] at hread
    exact ⟨row, word, k, line, hrow, Output.ne_nil_of_mem_instructionRows
      (List.mem_of_getElem? hrow), hword, hline, hnumber, htext, hread⟩
  · rw [Output.labelRows, List.length_map, SymbolTable.length_sortedAddresses]
  · intro session' file' source' bytes' hvalid' hbytes' heq
    obtain ⟨_, _, _, hcode'⟩ := exists_build_of_assemble hvalid' hbytes'
    have hreport' := reportable_of_assemble hvalid' hbytes'
    obtain ⟨hwords, hlabels⟩ := hreport.eq_of_listing hreport' heq
    refine ⟨by rw [hcode', hwords, hcode], ?_⟩
    exact (SymbolTable.sortedAddresses_perm _).symm.trans (hlabels ▸ hperm)

/-- A name is wider than its column, and the texts hold a no-break space and a tab. Another source
with other indents and other comments has the same listing, and so the same labels. -/
theorem listing_reads_back_wide_name :
    let session : Session := ⟨{}, .empty⟩
    let source := "\n  the_first_label_of_all:\u00a0 nop ; $00\u2028\n\tj\tB ; back\n B:".toList
    let other := ";\r\n the_first_label_of_all:\u00a0 nop\nj\tB;\n;\nB:".toList
    session.settings.isValid = true ∧
      (session.assemble "a" source).result = .ok [0, 0, 240, 2] ∧
      (∃ row ∈ Text.splitLines (session.assemble "a" source).session.output.listing.toList,
        Output.readInstructionRow? row = some ⟨1, 0xF002, 3, "j\tB"⟩) ∧
      (session.assemble "b" other).session.output.symbols.addresses.Perm
        [("the_first_label_of_all", 0), ("B", 2)] := by
  intro session source other
  have hvalid : session.settings.isValid = true := by decide
  obtain ⟨hbytes, hwords, haddresses, hsecond⟩ :
      (session.assemble "a" source).result = .ok [0, 0, 240, 2] ∧
      (session.assemble "a" source).session.output.words = [0, 0xF002] ∧
      (session.assemble "a" source).session.output.symbols.addresses =
        [("the_first_label_of_all", 0), ("B", 2)] ∧
      ((session.assemble "a" source).session.output.program.instructions[1]?).map
        (fun i => (i.location.line, i.sourceLine)) = some (3, "\tj\tB ; back") := by
    decide +kernel
  obtain ⟨hother, hlabels, hrows⟩ :
      (session.assemble "b" other).result = .ok [0, 0, 240, 2] ∧
      (session.assemble "b" other).session.output.symbols.addresses =
        (session.assemble "a" source).session.output.symbols.addresses ∧
      ((session.assemble "b" other).session.output.program.instructions.zip
        (session.assemble "b" other).session.output.words).map
          (fun row => Output.instructionRow row.1 row.2) =
        ((session.assemble "a" source).session.output.program.instructions.zip
          (session.assemble "a" source).session.output.words).map
            (fun row => Output.instructionRow row.1 row.2) := by
    decide +kernel
  have hlisting : (session.assemble "b" other).session.output.listing =
      (session.assemble "a" source).session.output.listing := by
    rw [Output.listing, Output.listing, Output.listingLines, Output.listingLines, hrows,
      SymbolTable.sortedAddresses, SymbolTable.sortedAddresses, hlabels]
  obtain ⟨⟨rows, _, _, hsplit, _, _, _, _, htold, _⟩, hsame⟩ := listing_reads_back hvalid hbytes
  obtain ⟨i, hi, hplace⟩ := Option.map_eq_some_iff.1 hsecond
  obtain ⟨hline, hsource⟩ := Prod.mk.inj hplace
  obtain ⟨row, word, k, line, hrow, _, hword, _, hnumber, htext, hread⟩ := htold 1 i hi
  refine ⟨hvalid, hbytes, ⟨row, ?_, ?_⟩, ?_⟩
  · rw [hsplit]
    simp [List.mem_of_getElem? hrow]
  · have hk : k + 1 = 3 := by omega
    have hchars : line.text = "\tj\tB ; back".toList := by
      rw [← hsource, htext, String.toList_ofList]
    rw [hwords] at hword
    cases hword
    rw [hread, hk, hchars]
    decide +kernel
  · rw [← haddresses]
    exact (hsame session "b" other _ hvalid hother hlisting).2

/-- The symbol file of a source is two remarks and a line for each label, in the order of the names.
Each of these lines has one space, and is no remark. To read them gives all names with their
addresses. -/
theorem symbolFile_reads_back (hvalid : session.settings.isValid = true)
    (hbytes : (session.assemble file source).result = .ok bytes) :
    let o := (session.assemble file source).session.output
    ∃ rows labels,
      Text.splitLines o.symbolFile.toList = Output.remarks ++ rows ++ [[]] ∧
      Output.remarks.length = 2 ∧ (∀ remark ∈ Output.remarks, remark.head? = some '#') ∧
      rows.length = o.symbols.size ∧
      (∀ row ∈ rows, row.count ' ' = 1 ∧ row.head? ≠ some '#') ∧
      rows.mapM Output.readSymbolLine? = some labels ∧
      Output.readSymbolFile? o.symbolFile.toList = some labels ∧
      labels.Perm o.symbols.addresses ∧ (labels.map Prod.fst).Pairwise (· < ·) := by
  intro o
  have hreport : o.Reportable := reportable_of_assemble hvalid hbytes
  have hremarks : Output.remarks.all (fun remark => remark.head? = some '#') = true := by decide
  refine ⟨o.labelLines, o.symbols.sortedAddresses, hreport.splitLines_symbolFile, rfl, ?_, ?_,
    fun row => hreport.of_mem_labelLines, hreport.mapM_labelLines,
    hreport.readSymbolFile?_symbolFile, o.symbols.sortedAddresses_perm,
    o.symbols.pairwise_sortedAddresses⟩
  · exact fun remark hremark => of_decide_eq_true (List.all_eq_true.1 hremarks remark hremark)
  · rw [Output.labelLines, List.length_map, SymbolTable.length_sortedAddresses]

/-- The names are not declared in their order, and small letters come behind the underscore. -/
theorem symbolFile_reads_back_mixed_names :
    let session : Session := ⟨{}, .empty⟩
    let source := "r1x: nop\n_r:R: j r1x\nr0_:".toList
    session.settings.isValid = true ∧
      (session.assemble "a" source).result = .ok [0, 0, 240, 0] ∧
      ∃ labels, Output.readSymbolFile?
          (session.assemble "a" source).session.output.symbolFile.toList = some labels ∧
        labels.Perm [("r1x", 0), ("_r", 1), ("R", 1), ("r0_", 2)] ∧
        (labels.map Prod.fst).Pairwise (· < ·) := by
  intro session source
  have hvalid : session.settings.isValid = true := by decide
  obtain ⟨hbytes, haddresses⟩ :
      (session.assemble "a" source).result = .ok [0, 0, 240, 0] ∧
      (session.assemble "a" source).session.output.symbols.addresses =
        [("r1x", 0), ("_r", 1), ("R", 1), ("r0_", 2)] := by
    decide +kernel
  obtain ⟨_, labels, _, _, _, _, _, _, hread, hperm, hsorted⟩ :=
    symbolFile_reads_back hvalid hbytes
  exact ⟨hvalid, hbytes, labels, hread, haddresses ▸ hperm, hsorted⟩

end Session

end Risc16
