import Mathlib.Data.List.TakeDrop
import Risc16.Output.Reader
import Risc16.Proofs.Relocation
import Risc16.Proofs.Reprint

/-!
# Columns of the reports

Numbers stand in the reports in columns of a least width, with zeros or spaces in front. A number
that needs more room gets it, and pushes what follows to the right. So a column ends where the next
space is and not at a fixed place, and is read so.

Results:
1. `Output.readHex?_padStart`, `Output.length_hexText_four`: hexadecimal columns.
2. `Output.cutAtSpace_skipSpaces`: the next column of a row.
3. `Output.readInstructionRow?_instructionRow`, `Output.readSymbolRow?_symbolRow`,
   `Output.readSymbolLine?_append`: the rows of a listing and of a symbol file read back.
4. `Output.splitLines_ofLines`: the lines of a report.
5. `SymbolTable.pairwise_sortedAddresses`: the labels of a report stand in the order of their names.
-/

namespace Risc16

namespace Output

/-! ## Hexadecimal numbers -/

theorem hexDigit?_digitChar {d : Nat} (h : d < 16) : hexDigit? d.digitChar.toUpper = some d := by
  have hall : (List.range 16).all (fun d => hexDigit? d.digitChar.toUpper = some d) = true := by
    decide
  exact of_decide_eq_true (List.all_eq_true.1 hall d (List.mem_range.2 h))

theorem readHex?_eq {digits : List Char} (h : digits ≠ []) :
    readHex? digits = readHexFrom? 0 digits :=
  if_neg h

theorem readHexFrom?_append (n : Nat) (digits digits' : List Char) :
    readHexFrom? n (digits ++ digits') =
      (readHexFrom? n digits).bind fun n => readHexFrom? n digits' :=
  List.foldlM_append

theorem readHexFrom?_hexDigits (n : Nat) : readHexFrom? 0 (Text.hexDigits n) = some n := by
  induction n using Nat.strongRecOn with
  | _ n ih =>
    by_cases hlt : n < 16
    · rw [Text.hexDigits, Nat.toDigits_of_lt_base hlt, List.map_singleton, readHexFrom?,
        List.foldlM_cons, hexDigit?_digitChar hlt]
      simp
    · -- All digits but the last write the sixteenth part.
      have hsplit : Text.hexDigits n = Text.hexDigits (n / 16) ++ [(n % 16).digitChar.toUpper] := by
        rw [Text.hexDigits, Nat.toDigits_of_base_le (by decide) (Nat.not_lt.1 hlt), List.map_append]
        rfl
      rw [hsplit, readHexFrom?_append, ih (n / 16) (by omega), Option.bind_some, readHexFrom?,
        List.foldlM_cons, hexDigit?_digitChar (Nat.mod_lt n (by decide))]
      simp only [Option.map_some, List.foldlM_nil, Option.pure_def, Option.bind_eq_bind,
        Option.bind_some, Nat.div_add_mod]

theorem readHexFrom?_zeros (width : Nat) : readHexFrom? 0 (List.replicate width '0') = some 0 := by
  induction width with
  | zero => rfl
  | succ width ih => exact ih

theorem hexDigits_ne_nil (n : Nat) : Text.hexDigits n ≠ [] := by
  rw [Text.hexDigits, ne_eq, List.map_eq_nil_iff]
  exact Nat.toDigits_ne_nil

/-- A hexadecimal column reads back, however wide the number is. -/
theorem readHex?_padStart (width n : Nat) :
    readHex? (Text.padStart width '0' (Text.hexDigits n)) = some n := by
  have hne : Text.padStart width '0' (Text.hexDigits n) ≠ [] :=
    List.append_ne_nil_of_right_ne_nil _ (hexDigits_ne_nil n)
  rw [readHex?_eq hne, Text.padStart, readHexFrom?_append, readHexFrom?_zeros, Option.bind_some,
    readHexFrom?_hexDigits]

theorem toList_hexText (width n : Nat) :
    (Text.hexText width (n : Int)).toList = Text.padStart width '0' (Text.hexDigits n) := by
  have hnonneg : ¬ (n : Int) < 0 := Int.not_lt.2 (Int.natCast_nonneg n)
  rw [Text.hexText, if_neg hnonneg, String.toList_ofList, Int.natAbs_natCast]

theorem readHex?_hexText (width n : Nat) :
    readHex? (Text.hexText width (n : Int)).toList = some n := by
  rw [toList_hexText, readHex?_padStart]

/-- Digits that can be read are digits. -/
theorem notMem_of_readHexFrom? {m n : Nat} {digits : List Char} {c : Char}
    (h : readHexFrom? m digits = some n) (hc : hexDigit? c = none) : c ∉ digits := by
  induction digits generalizing m with
  | nil => exact List.not_mem_nil
  | cons d digits ih =>
    rw [readHexFrom?, List.foldlM_cons] at h
    cases hd : hexDigit? d with
    | none =>
      rw [hd] at h
      cases h
    | some value =>
      rw [hd] at h
      intro hmem
      rcases List.mem_cons.1 hmem with rfl | hmem
      · rw [hc] at hd
        cases hd
      · exact ih h hmem

theorem hexText_ne_nil (width n : Nat) : (Text.hexText width (n : Int)).toList ≠ [] := by
  intro hnil
  have hread := readHex?_hexText width n
  rw [hnil] at hread
  cases hread

theorem notMem_hexText (width n : Nat) {c : Char} (hc : hexDigit? c = none) :
    c ∉ (Text.hexText width (n : Int)).toList := by
  have hread := readHex?_hexText width n
  rw [readHex?_eq (hexText_ne_nil width n)] at hread
  exact notMem_of_readHexFrom? hread hc

/-- A word has four digits. -/
theorem length_hexText_four {word : Nat} (h : word ≤ wordMax) :
    (Text.hexText 4 (word : Int)).toList.length = 4 := by
  have hlength : (Text.hexDigits word).length ≤ 4 := by
    rw [Text.hexDigits, List.length_map, Nat.length_toDigits_le_iff (by decide) (by decide)]
    exact Nat.lt_succ_of_le h
  rw [toList_hexText, Text.padStart, List.length_append, List.length_replicate]
  omega

/-! ## Columns of a row -/

variable {word rest : List Char}

theorem cutAtSpace_append (h : ' ' ∉ word) (gap : Nat) (rest : List Char) :
    cutAtSpace (word ++ (List.replicate (gap + 1) ' ' ++ rest)) =
      (word, List.replicate (gap + 1) ' ' ++ rest) := by
  have hword : ∀ c ∈ word, decide (c ≠ ' ') = true := by
    intro c hc
    exact decide_eq_true fun hspace => h (hspace ▸ hc)
  rw [cutAtSpace, List.span_eq_takeWhile_dropWhile, List.takeWhile_append_of_pos hword,
    List.dropWhile_append_of_pos hword, List.replicate_succ, List.cons_append,
    List.takeWhile_cons_of_neg (by decide), List.dropWhile_cons_of_neg (by decide), List.append_nil]

theorem skipSpaces_append (gap : Nat) (h : rest.head? ≠ some ' ') :
    skipSpaces (List.replicate gap ' ' ++ rest) = rest := by
  have hgap : ∀ c ∈ List.replicate gap ' ', decide (c = ' ') = true := by
    intro c hc
    exact decide_eq_true (List.eq_of_mem_replicate hc)
  rw [skipSpaces, List.dropWhile_append_of_pos hgap]
  cases rest with
  | nil => rfl
  | cons c rest => exact List.dropWhile_cons_of_neg (by simpa using h)

/-- The next column of a row ends at the first space behind it. -/
theorem cutAtSpace_skipSpaces (hne : word ≠ []) (h : ' ' ∉ word) (before gap : Nat)
    (rest : List Char) :
    cutAtSpace (skipSpaces
      (List.replicate before ' ' ++ (word ++ (List.replicate (gap + 1) ' ' ++ rest)))) =
        (word, List.replicate (gap + 1) ' ' ++ rest) := by
  rw [skipSpaces_append, cutAtSpace_append h]
  obtain ⟨c, word, rfl⟩ := List.exists_cons_of_ne_nil hne
  intro hspace
  cases hspace
  exact h List.mem_cons_self

/-! ## Rows of a listing -/

theorem toList_instructionRow (i : Instruction) (word : Nat) :
    ∃ gap, (instructionRow i word).toList =
      '$' :: ((Text.hexText 2 i.address).toList ++ (List.replicate 3 ' ' ++
        ((Text.hexText 4 word).toList ++ (List.replicate (gap + 1) ' ' ++
          ((toString i.location.line).toList ++ (List.replicate 2 ' ' ++ i.text.toList)))))) := by
  have hdollar : "$".toList = ['$'] := rfl
  have htwo : "  ".toList = List.replicate 2 ' ' := rfl
  have hthree : "   ".toList = List.replicate 3 ' ' := rfl
  refine ⟨1 + (4 - (toString i.location.line).toList.length), ?_⟩
  rw [Nat.add_right_comm, List.replicate_add, List.append_assoc]
  unfold instructionRow
  simp only [String.toList_append, String.toList_ofList, Text.padStart, toString, hdollar, htwo,
    hthree, List.append_assoc, List.cons_append, List.nil_append, Nat.reduceAdd]

theorem toList_toString (n : Nat) : (toString (n : Int)).toList = Nat.toDigits 10 n :=
  (Operand.toList_render_immediate n).trans (if_pos (Int.natCast_nonneg n))

theorem readDecimal?_toDigits (n : Nat) : readDecimal? (Nat.toDigits 10 n) = some n := by
  rw [readDecimal?, if_pos (Text.isNumeral_toDigits n), Nat.ofDigitChars_ten_toDigits]

theorem notMem_toDigits (n : Nat) {c : Char} (hc : c.isDigit = false) : c ∉ Nat.toDigits 10 n := by
  intro hmem
  rw [Nat.isDigit_of_mem_toDigits (by decide) (by decide) hmem] at hc
  cases hc

/-- The row of an instruction reads back. -/
theorem readInstructionRow?_instructionRow {i : Instruction} {word line : Nat}
    (hline : i.location.line = line) (hword : word ≤ wordMax) :
    readInstructionRow? (instructionRow i word).toList =
      some ⟨i.address, word, line, i.text⟩ := by
  obtain ⟨gap, hrow⟩ := toList_instructionRow i word
  rw [hline, toList_toString] at hrow
  have haddress : ∀ rest, cutAtSpace ((Text.hexText 2 i.address).toList ++
      (List.replicate 3 ' ' ++ rest)) =
        ((Text.hexText 2 i.address).toList, List.replicate 3 ' ' ++ rest) :=
    cutAtSpace_append (notMem_hexText 2 i.address rfl) 2
  have hcode : ∀ rest, cutAtSpace (skipSpaces (List.replicate 3 ' ' ++
      ((Text.hexText 4 word).toList ++ (List.replicate (gap + 1) ' ' ++ rest)))) =
        ((Text.hexText 4 word).toList, List.replicate (gap + 1) ' ' ++ rest) :=
    cutAtSpace_skipSpaces (hexText_ne_nil 4 word) (notMem_hexText 4 word rfl) 3 gap
  have hnumber : ∀ rest, cutAtSpace (skipSpaces (List.replicate (gap + 1) ' ' ++
      (Nat.toDigits 10 line ++ (List.replicate 2 ' ' ++ rest)))) =
        (Nat.toDigits 10 line, List.replicate 2 ' ' ++ rest) :=
    cutAtSpace_skipSpaces Nat.toDigits_ne_nil (notMem_toDigits line rfl) (gap + 1) 1
  have htext : String.ofList ((List.replicate 2 ' ' ++ i.text.toList).drop 2) = i.text :=
    String.ofList_toList
  simp only [hrow, readInstructionRow?, haddress, hcode, hnumber, readHex?_hexText,
    length_hexText_four hword, if_true, readDecimal?_toDigits, htext, Option.bind_eq_bind,
    Option.bind_some, Option.pure_def]

theorem readLabel?_hexText (name : String) (address : Nat) :
    readLabel? name.toList (Text.hexText 2 address).toList = some (name, (address : Int)) := by
  rw [readLabel?, readHex?_hexText, Option.map_some, String.ofList_toList]

theorem toList_symbolRow (name : String) (address : Nat) :
    ∃ gap, (symbolRow name address).toList =
      name.toList ++ (List.replicate (gap + 1) ' ' ++
        ('=' :: ' ' :: '$' :: (Text.hexText 2 address).toList)) := by
  have hequals : " = $".toList = [' ', '=', ' ', '$'] := rfl
  refine ⟨20 - name.toList.length, ?_⟩
  rw [List.replicate_succ', List.append_assoc]
  unfold symbolRow
  simp only [String.toList_append, String.toList_ofList, Text.padEnd, toString, hequals,
    List.append_assoc, List.cons_append, List.nil_append]

/-- The row of a label reads back. -/
theorem readSymbolRow?_symbolRow {name : String} (h : ' ' ∉ name.toList) (address : Nat) :
    readSymbolRow? (symbolRow name address).toList = some (name, (address : Int)) := by
  obtain ⟨gap, hrow⟩ := toList_symbolRow name address
  have hrest : skipSpaces (List.replicate (gap + 1) ' ' ++
      ('=' :: ' ' :: '$' :: (Text.hexText 2 address).toList)) =
        '=' :: ' ' :: '$' :: (Text.hexText 2 address).toList :=
    skipSpaces_append (gap + 1) (by simp)
  simp only [hrow, readSymbolRow?, cutAtSpace_append h, hrest, readLabel?_hexText]

/-- A line of the symbol file reads back. -/
theorem readSymbolLine?_append {name : String} (h : ' ' ∉ name.toList) (address : Nat) :
    readSymbolLine? (name.toList ++ ' ' :: '$' :: (Text.hexText 2 address).toList) =
      some (name, (address : Int)) := by
  have hcut : cutAtSpace (name.toList ++ ' ' :: '$' :: (Text.hexText 2 address).toList) =
      (name.toList, ' ' :: '$' :: (Text.hexText 2 address).toList) :=
    cutAtSpace_append h 0 _
  rw [readSymbolLine?, hcut]
  exact readLabel?_hexText name address

/-! ## Lines of a report -/

/-- A report is cut into its lines, and an empty part behind the last line feed. -/
theorem splitLines_ofLines {lines : List String} (h : ∀ line ∈ lines, '\n' ∉ line.toList) :
    Text.splitLines (Text.ofLines lines).toList = lines.map String.toList ++ [[]] := by
  induction lines with
  | nil => rfl
  | cons line lines ih =>
    obtain ⟨hline, hrest⟩ := List.forall_mem_cons.1 h
    have hone : Text.splitLines line.toList = [line.toList] := List.splitOn_eq_singleton hline
    rw [Text.toList_ofLines_cons, Text.splitLines, List.splitOn_append_cons_self,
      ← Text.splitLines, hone, ← Text.splitLines, ih hrest, List.map_cons, List.singleton_append,
      List.cons_append]

/-- Rows that are read one by one are read all together. -/
theorem mapM_rows {α β : Type} {read? : List Char → Option β} {row : α → List Char} {data : α → β}
    {as : List α} (h : ∀ a ∈ as, read? (row a) = some (data a)) :
    (as.map row).mapM read? = some (as.map data) := by
  induction as with
  | nil => rfl
  | cons a as ih =>
    obtain ⟨ha, has⟩ := List.forall_mem_cons.1 h
    rw [List.map_cons, List.mapM_cons, ha, ih has]
    rfl

end Output

/-! ## The order of names -/

namespace SymbolTable

theorem sortedAddresses_perm (t : SymbolTable) : t.sortedAddresses.Perm t.addresses :=
  List.mergeSort_perm _ _

/-- The names of a report ascend, each of them once. -/
theorem pairwise_sortedAddresses (t : SymbolTable) :
    (t.sortedAddresses.map Prod.fst).Pairwise (· < ·) := by
  have hsorted : t.sortedAddresses.Pairwise fun a b =>
      Text.codePointLe a.1.toList b.1.toList = true := by
    refine List.pairwise_mergeSort ?_ ?_ t.addresses
    · intro a b c
      simp only [Text.codePointLe_iff]
      exact List.le_trans
    · intro a b
      rw [Bool.or_eq_true, Text.codePointLe_iff, Text.codePointLe_iff]
      exact List.le_total _ _
  have hnodup : (t.sortedAddresses.map Prod.fst).Nodup := by
    rw [(t.sortedAddresses_perm.map Prod.fst).nodup_iff, addresses, List.map_map]
    exact t.nodup_names
  rw [List.pairwise_map]
  refine (hsorted.and (List.pairwise_map.1 hnodup)).imp ?_
  rintro a b ⟨hle, hne⟩
  rw [String.lt_iff]
  apply Classical.byContradiction
  intro hlt
  exact hne (String.toList_inj.1 (List.le_antisymm (Text.codePointLe_iff.1 hle) hlt))

end SymbolTable

end Risc16
