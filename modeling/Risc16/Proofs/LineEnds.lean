import Risc16.Proofs.History
import Risc16.Proofs.TextBytes

/-!
# Line ends

Carriage returns go at two places. A file is freed of them before it is cut into lines. A text is
cut first, and each of its lines then loses those at its end. Where every carriage return belongs to
a line feed, the lines come out the same, and nothing else of a source is ever looked at.

Results:
1. `Text.map_dropLineEnd_unifyLineEnds`: the lines of a text before and after its line ends are made
   the same.
2. `SourceLine.ofSource_unifyLineEnds`, `SourceLine.ofSource_withReturns`: the source lines.
3. `Session.line_ends_are_free`: a file gives what its text gives, whichever line ends it has.
-/

namespace Risc16

namespace Text

/-- Each carriage return has a line feed right behind it. -/
def ReturnsPaired (text : List Char) : Prop :=
  ∀ n : Nat, text[n]? = some '\r' → text[n + 1]? = some '\n'

/-- The text with a carriage return put before each line feed. -/
def withReturns (text : List Char) : List Char :=
  text.flatMap fun c => if c = '\n' then ['\r', '\n'] else [c]

variable {c : Char} {text text' : List Char}

/-! ## Lines -/

theorem returnsPaired_of_notMem (h : '\r' ∉ text) : ReturnsPaired text :=
  fun _ hn => absurd (List.mem_of_getElem? hn) h

theorem ReturnsPaired.tail (h : ReturnsPaired (c :: text)) : ReturnsPaired text :=
  fun n => h (n + 1)

theorem ReturnsPaired.cons (h : ReturnsPaired text) (hc : c = '\r' → text.head? = some '\n') :
    ReturnsPaired (c :: text) := by
  intro n hn
  cases n with
  | zero =>
    rw [Nat.zero_add, List.getElem?_cons_succ, ← List.head?_eq_getElem?]
    exact hc (Option.some.inj hn)
  | succ n => exact h n hn

/-- What a line loses at its end depends only on what the rest of the line loses. -/
theorem dropLineEnd_cons_congr {line line' : List Char} (h : dropLineEnd line = dropLineEnd line')
    (c : Char) : dropLineEnd (c :: line) = dropLineEnd (c :: line') := by
  unfold dropLineEnd dropEndWhile at *
  rw [List.reverse_cons, List.reverse_cons, List.dropWhile_append, List.dropWhile_append,
    List.reverse_injective h]

theorem splitLines_feed (text : List Char) :
    splitLines ('\n' :: text) = [] :: splitLines text := by
  rw [splitLines, List.splitOn_cons_eq_if_modifyHead, if_pos (beq_self_eq_true '\n'), splitLines]

theorem map_dropLineEnd_cons (c : Char)
    (h : (splitLines text).map dropLineEnd = (splitLines text').map dropLineEnd) :
    (splitLines (c :: text)).map dropLineEnd = (splitLines (c :: text')).map dropLineEnd := by
  by_cases hc : c = '\n'
  · rw [hc, splitLines_feed, splitLines_feed, List.map_cons, List.map_cons, h]
  · -- The character joins the first line of both.
    have hjoin : ∀ {text line lines}, splitLines text = line :: lines →
        splitLines (c :: text) = (c :: line) :: lines := by
      intro text line lines htext
      rw [splitLines] at htext
      rw [splitLines, List.splitOn_cons_eq_if_modifyHead, if_neg (mt beq_iff_eq.1 hc), htext]
      rfl
    obtain ⟨line, lines, hlines⟩ := List.exists_cons_of_ne_nil (List.splitOn_ne_nil '\n' text)
    obtain ⟨line', lines', hlines'⟩ := List.exists_cons_of_ne_nil (List.splitOn_ne_nil '\n' text')
    rw [splitLines, hlines, splitLines, hlines', List.map_cons, List.map_cons] at h
    obtain ⟨hfirst, hrest⟩ := List.cons_eq_cons.1 h
    rw [hjoin hlines, hjoin hlines', List.map_cons, List.map_cons,
      dropLineEnd_cons_congr hfirst c, hrest]

/-- The same lines are left whether the carriage returns go before the text is cut or after. -/
theorem map_dropLineEnd_unifyLineEnds (h : ReturnsPaired text) :
    (splitLines (unifyLineEnds text)).map dropLineEnd = (splitLines text).map dropLineEnd := by
  fun_induction unifyLineEnds text with
  | case1 => rfl
  | case2 rest ih =>
    have hlines : splitLines ('\r' :: '\n' :: rest) = ['\r'] :: splitLines rest := by
      rw [splitLines, List.splitOn_cons_eq_if_modifyHead, if_neg (by decide), ← splitLines,
        splitLines_feed]
      rfl
    rw [splitLines_feed, hlines, List.map_cons, List.map_cons, ih h.tail.tail]
    rfl
  | case3 rest hfeed _ =>
    have hhead : rest.head? = some '\n' := List.head?_eq_getElem?.trans (h 0 rfl)
    obtain ⟨later, hrest⟩ := List.head?_eq_some_iff.1 hhead
    exact absurd hrest (hfeed later)
  | case4 c rest _ _ ih => exact map_dropLineEnd_cons c (ih h.tail)

/-! ## A carriage return for each line feed -/

theorem withReturns_cons (c : Char) (text : List Char) :
    withReturns (c :: text) = (if c = '\n' then ['\r', '\n'] else [c]) ++ withReturns text :=
  List.flatMap_cons

theorem returnsPaired_withReturns (h : '\r' ∉ text) : ReturnsPaired (withReturns text) := by
  induction text with
  | nil => exact fun n hn => nomatch hn
  | cons c text ih =>
    obtain ⟨hc, htext⟩ := not_or.1 (List.mem_cons.not.1 h)
    rw [withReturns_cons]
    split
    · have hfeed : ReturnsPaired ('\n' :: withReturns text) :=
        (ih htext).cons fun hreturn => absurd hreturn (by decide)
      exact hfeed.cons fun _ => rfl
    · exact (ih htext).cons fun hreturn => absurd hreturn.symm hc

/-- The carriage returns that were put in are taken out again. -/
theorem unifyLineEnds_withReturns (h : '\r' ∉ text) : unifyLineEnds (withReturns text) = text := by
  induction text with
  | nil => rfl
  | cons c text ih =>
    obtain ⟨hc, htext⟩ := not_or.1 (List.mem_cons.not.1 h)
    rw [withReturns_cons]
    split
    · next hfeed =>
      show '\n' :: unifyLineEnds (withReturns text) = _
      rw [ih htext, hfeed]
    · show unifyLineEnds (c :: withReturns text) = _
      rw [unifyLineEnds, ih htext]
      · exact fun _ hreturn _ => hc hreturn.symm
      · exact fun hreturn => hc hreturn.symm

end Text

/-! ## Source lines -/

namespace SourceLine

variable {source : List Char}

theorem numberFrom_congr {raws raws' : List (List Char)}
    (h : raws.map Text.dropLineEnd = raws'.map Text.dropLineEnd) (file : String) (number : Int) :
    numberFrom file number raws = numberFrom file number raws' := by
  induction raws generalizing raws' number with
  | nil => rw [List.map_eq_nil_iff.1 h.symm]
  | cons raw raws ih =>
    obtain ⟨raw', rest, rfl, hraw, hrest⟩ := List.map_eq_cons_iff.1 h.symm
    rw [numberFrom, numberFrom, ofText, ofText, hraw, ih hrest.symm]

theorem ofSource_unifyLineEnds (h : Text.ReturnsPaired source) (file : String) :
    ofSource file (Text.unifyLineEnds source) = ofSource file source :=
  numberFrom_congr (Text.map_dropLineEnd_unifyLineEnds h) file 1

theorem ofSource_withReturns (h : '\r' ∉ source) (file : String) :
    ofSource file (Text.withReturns source) = ofSource file source := by
  rw [← ofSource_unifyLineEnds (Text.returnsPaired_withReturns h),
    Text.unifyLineEnds_withReturns h]

end SourceLine

/-! ## Assemblies -/

namespace Session

/-- Nothing of a source is looked at but its lines. -/
theorem assemble_congr {file : String} {source source' : List Char}
    (h : SourceLine.ofSource file source = SourceLine.ofSource file source') (session : Session) :
    session.assemble file source = session.assemble file source' := by
  rw [assemble, assemble, Assembly.ofSource, Assembly.ofSource, Draft.ofSource, Draft.ofSource, h]

/-- A file that holds a text gives what the text gives once its line ends are made the same. -/
theorem assembleFile_encode {path : Path} (hpath : Text.hasZero path.render = false)
    (session : Session) (source : List Char) :
    session.assembleFile path (.ok (Text.Utf8.encode source)) =
      session.assemble path.render (Text.unifyLineEnds source) := by
  have hsource : sourceOfFile path (.ok (Text.Utf8.encode source)) =
      .ok (Text.unifyLineEnds source) := by
    simp only [sourceOfFile, hpath, Bool.false_eq_true, if_false, Text.Utf8.decode_ok.2 rfl]
  rw [assembleFile_eq, hsource]

/-- Line ends are free. A file that holds a text in which every carriage return belongs to a line
feed gives all that the text itself gives: the steps, the bytes or the same failure, and the output
that is left. So it changes nothing if each line feed of a text without carriage returns gets one,
in the text or in a file that holds it. A path with a zero character is that of no file. -/
theorem line_ends_are_free (session : Session) (path : Path)
    (hpath : Text.hasZero path.render = false) :
    (∀ source, Text.ReturnsPaired source →
      session.assembleFile path (.ok (Text.Utf8.encode source)) =
        session.assemble path.render source) ∧
    ∀ source, '\r' ∉ source →
      (∀ file, session.assemble file (Text.withReturns source) = session.assemble file source) ∧
      session.assembleFile path (.ok (Text.Utf8.encode (Text.withReturns source))) =
        session.assembleFile path (.ok (Text.Utf8.encode source)) := by
  have hfile : ∀ source, Text.ReturnsPaired source →
      session.assembleFile path (.ok (Text.Utf8.encode source)) =
        session.assemble path.render source := by
    intro source hpaired
    rw [assembleFile_encode hpath]
    exact assemble_congr (SourceLine.ofSource_unifyLineEnds hpaired _) session
  refine ⟨hfile, ?_⟩
  intro source hplain
  have hsame : ∀ file, session.assemble file (Text.withReturns source) =
      session.assemble file source :=
    fun file => assemble_congr (SourceLine.ofSource_withReturns hplain file) session
  refine ⟨hsame, ?_⟩
  rw [hfile _ (Text.returnsPaired_withReturns hplain), hsame,
    hfile _ (Text.returnsPaired_of_notMem hplain)]

/-- Of the line ends of a file only the first two have carriage returns. The label that is missing
is found at the same place, and the line is quoted without a carriage return. A text without them
gives the same bytes when it gets some. -/
theorem line_ends_are_free_missing_label :
    let session : Session := ⟨{}, .empty⟩
    let source := "top: nop\r\n\tj  tip ; back\r\n\nnop".toList
    let plain := "top: ; here\nj top".toList
    Text.hasZero (Path.ofText "a.basm").render = false ∧ Text.ReturnsPaired source ∧
      '\r' ∉ plain ∧
      (session.assembleFile (Path.ofText "a.basm") (.ok (Text.Utf8.encode source))).result =
        .error (.diagnostic ⟨.undefinedLabel "tip" ["top"], some ⟨"a.basm", 2, 5⟩,
          some "\tj  tip ; back"⟩) ∧
      (session.assemble "b" (Text.withReturns plain)).result = .ok [240, 0] := by
  intro session source plain
  have hpath : Text.hasZero (Path.ofText "a.basm").render = false := by decide +kernel
  have hpaired : Text.ReturnsPaired source := by
    have hbounded : ∀ n < source.length, source[n]? = some '\r' → source[n + 1]? = some '\n' := by
      decide +kernel
    intro n hn
    exact hbounded n (List.getElem?_eq_some_iff.1 hn).1 hn
  have hplain : '\r' ∉ plain := by decide +kernel
  have hresult : (session.assemble (Path.ofText "a.basm").render source).result =
      .error (.diagnostic ⟨.undefinedLabel "tip" ["top"], some ⟨"a.basm", 2, 5⟩,
        some "\tj  tip ; back"⟩) := by decide +kernel
  have hbytes : (session.assemble "b" plain).result = .ok [240, 0] := by decide +kernel
  obtain ⟨hfile, hreturns⟩ := line_ends_are_free session (Path.ofText "a.basm") hpath
  refine ⟨hpath, hpaired, hplain, ?_, ?_⟩
  · rw [hfile source hpaired, hresult]
  · rw [(hreturns plain hplain).1 "b", hbytes]

end Session

end Risc16
