import Risc16.Proofs.SameProgram
import Risc16.Proofs.Spacing

/-!
# Lines of labels

A label can stand on a line of its own or in front of its instruction. A line that only declares
labels can be joined with the line below it, whatever that line is: one with an instruction, with
labels only, an empty one or a faulty one. Declarations do not end the wait for the name of the
instruction, and no address is given out between the two lines.

The fault of a source may change: joined with its line of labels, a bad word comes to the reader
before a label that is declared twice. So the two sources are refused together, not for one reason.

Results:
1. `SourceLine.runPieces_append_labels`, `SourceLine.joined_says`: what the joined line says.
2. `Renaming.MapsDraft.readTokens_join_agree`: the step, two lines against the joined one.
3. `Renaming.readLines_join_agree`: the run, all lines.
4. `Session.label_lines_join`: both sources give the same bytes and addresses, or both are refused.
-/

namespace Risc16

open Outcome

/-! ## What lines say -/

namespace SourceLine

/-- Two lines say the same: the same tokens, up to a bad word in both or in neither. -/
structure SaysSame (line line' : SourceLine) : Prop where
  lexemes : line'.lexemes = line.lexemes
  lexed : line'.run.fault? = none ↔ line.run.fault? = none

theorem SaysSame.refl (line : SourceLine) : line.SaysSame line :=
  ⟨rfl, Iff.rfl⟩

/-- A line says the same further up. -/
theorem down_saysSame (n : Nat) (line : SourceLine) : (line.down n).SaysSame line := by
  obtain ⟨htokens, hlexed⟩ := runPieces_down n line true (Piece.cut 1 line.text)
  refine ⟨?_, hlexed.symm⟩
  have hmoved : (line.down n).run.tokens = line.run.tokens.map (Token.mapPlace (.down n)) := htokens
  rw [lexemes, lexemes, hmoved, List.map_map]
  rfl

/-- The lexemes of a line that only declares labels. -/
def labelLexemes (names : List String) : List Lexeme :=
  names.map .labelDef ++ [.lineEnd]

/-- Behind pieces that only declare labels, pieces say what they say at the start of a line. -/
theorem runPieces_append_labels {line : SourceLine} {pieces : List Piece} {names : List String}
    (hlexed : (line.runPieces true pieces).fault? = none)
    (hlabels : (line.runPieces true pieces).tokens.map Token.lexeme = labelLexemes names)
    (joined : SourceLine) (more : List Piece) :
    (joined.runPieces true (pieces ++ more)).tokens.map Token.lexeme =
        names.map .labelDef ++ (joined.runPieces true more).tokens.map Token.lexeme ∧
      ((joined.runPieces true (pieces ++ more)).fault? = none ↔
        (joined.runPieces true more).fault? = none) := by
  induction pieces generalizing names with
  | nil =>
    cases names with
    | nil => exact ⟨rfl, Iff.rfl⟩
    | cons name names => cases hlabels
  | cons piece pieces ih =>
    obtain ⟨lexeme, hclassify, hrest, htokens⟩ := runPieces_lexed hlexed
    rw [htokens, List.map_cons] at hlabels
    cases names with
    | nil =>
      have hend : lexeme = .lineEnd := (List.cons_eq_cons.1 hlabels).1
      exact absurd (hend ▸ hclassify) Piece.classify_ne_lineEnd
    | cons name names =>
      obtain ⟨hlexeme, hlater⟩ := List.cons_eq_cons.1 hlabels
      have hname : lexeme = .labelDef name := hlexeme
      subst hname
      -- A declaration keeps the wait for the name of the instruction.
      obtain ⟨hlexemes, hfault⟩ := ih hrest hlater
      rw [List.cons_append, runPieces, hclassify]
      exact ⟨congrArg (Lexeme.labelDef name :: ·) hlexemes, hfault⟩

/-- A line of labels, joined with a line below it, says what both say. -/
theorem joined_says {file : String} {number : Int} {first : List Char} {names : List String}
    (hcomment : ';' ∉ first) (hlexed : (ofText file number first).run.fault? = none)
    (hlabels : (ofText file number first).lexemes = labelLexemes names) (second : List Char)
    (number' : Int) :
    (ofText file number (first ++ ' ' :: second)).lexemes =
        names.map .labelDef ++ (ofText file number' second).lexemes ∧
      ((ofText file number (first ++ ' ' :: second)).run.fault? = none ↔
        (ofText file number' second).run.fault? = none) := by
  let joined := ofText file number (first ++ ' ' :: second)
  let below := ofText file number' second
  let width := first.length + 1
  have hpieces : Piece.cut 1 (first ++ ' ' :: second) =
      Piece.cut 1 first ++ (Piece.cut 1 second).map (Piece.right width) := by
    have hbreaks : Text.Breaks (' ' :: second) := by simp [Text.Breaks, Text.isBlank]
    rw [Piece.cut_append (fun c hc heq => hcomment (heq ▸ hc)) (.inr hbreaks),
      Piece.cut_blank (by decide), Nat.add_assoc, Piece.cut_right]
  have hcarry := @runPieces_carry below joined (fun l => ⟨file, number, l.column + width⟩)
    (Piece.right width) (fun _ => rfl) (fun _ => rfl) true (Piece.cut 1 second)
  rw [← run_ofText] at hcarry
  rw [run_ofText] at hlexed
  rw [lexemes, run_ofText] at hlabels
  obtain ⟨hlexemes, hfault⟩ := runPieces_append_labels hlexed hlabels joined
    ((Piece.cut 1 second).map (Piece.right width))
  rw [hcarry] at hlexemes hfault
  rw [lexemes, run_ofText, hpieces]
  refine ⟨hlexemes.trans ?_, hfault.trans ?_⟩
  · rw [List.map_map]
    exact congrArg _ (List.map_congr_left fun token _ => carryToken_lexeme token)
  · exact Option.map_eq_none_iff

end SourceLine

/-! ## Reading -/

namespace Draft

variable {line : SourceLine}

theorem exists_readLine_error (h : line.run.fault? ≠ none) (d : Draft) :
    ∃ e, d.readLine line = .error e := by
  obtain ⟨e, he⟩ := Option.ne_none_iff_exists'.1 h
  refine ⟨e, ?_⟩
  rw [readLine, SourceLine.tokens, he]
  rfl

theorem readLines_append (d : Draft) (lines lines' : List SourceLine) :
    d.readLines (lines ++ lines') = d.readLines lines >>= fun d => d.readLines lines' := by
  induction lines generalizing d with
  | nil => rfl
  | cons line lines ih =>
    rw [List.cons_append, readLines, readLines, bind_assoc]
    exact bind_congr fun d => ih d

end Draft

/-- Two faults, whichever they are. -/
def AnyFaults (_ _ : Diagnostic) : Prop :=
  True

namespace Renaming

variable {d d' : Draft} {line line' : SourceLine}

theorem MapsDraft.readLine_agree_of_saysSame (h : refl.MapsDraft d d')
    (hsame : line.SaysSame line') :
    Agree AnyFaults refl.MapsDraft (d.readLine line) (d'.readLine line') := by
  by_cases hlexed : line.run.fault? = none
  · have hrenamed : line.Renamed id line' :=
      ⟨hlexed, hsame.lexed.2 hlexed, by rw [hsame.lexemes, Lexeme.renameAll_id]⟩
    exact (h.readLine_agree hrenamed fun _ _ => trivial).imp (fun _ _ _ _ _ => trivial)
      fun _ _ _ _ hdraft => hdraft
  · obtain ⟨e, he⟩ := Draft.exists_readLine_error hlexed d
    obtain ⟨e', he'⟩ := Draft.exists_readLine_error (hsame.lexed.not.2 hlexed) d'
    rw [he, he']
    exact .error trivial

theorem MapsDraft.readLines_agree_of_saysSame {lines lines' : List SourceLine}
    (h : refl.MapsDraft d d') (hlines : List.Forall₂ SourceLine.SaysSame lines lines') :
    Agree AnyFaults refl.MapsDraft (d.readLines lines) (d'.readLines lines') :=
  readLines_agree_of_step
    (hlines.imp fun _ _ hline _ _ hdraft => hdraft.readLine_agree_of_saysSame hline) h

variable {first second joined : SourceLine} {names : List String}

/-- Reading the labels of one line and then the tokens of the next is reading them all from one
line. -/
theorem MapsDraft.readTokens_join_agree {labels tokens tokens' : List Token}
    (h : refl.MapsDraft d d')
    (hlabels : labels.map Token.lexeme = SourceLine.labelLexemes names)
    (htokens : tokens'.map Token.lexeme = names.map .labelDef ++ tokens.map Token.lexeme) :
    Agree AnyFaults refl.MapsDraft
      (d.readTokens first labels >>= fun d => d.readTokens second tokens)
      (d'.readTokens joined tokens') := by
  induction names generalizing d d' labels tokens' with
  | nil =>
    obtain ⟨⟨lexeme, place⟩, rfl, hlexeme⟩ := List.map_eq_singleton_iff.1 hlabels
    cases hlexeme
    have hmaps : refl.Maps [] tokens tokens' :=
      ⟨htokens.trans (Lexeme.renameAll_id _ _).symm, fun _ _ => trivial⟩
    exact (h.readTokens_agree hmaps rfl).imp (fun _ _ _ _ _ => trivial)
      fun _ _ _ _ hdraft => hdraft
  | cons name names ih =>
    obtain ⟨⟨lexeme, place⟩, labels, rfl, hlexeme, hlater⟩ := List.map_eq_cons_iff.1 hlabels
    cases hlexeme
    obtain ⟨⟨lexeme', place'⟩, tokens', rfl, hlexeme', hlater'⟩ := List.map_eq_cons_iff.1 htokens
    cases hlexeme'
    have hdeclare : Agree AnyFaults refl.MapsDraft (d.declare first ⟨name, place⟩)
        (d'.declare joined ⟨name, place'⟩) :=
      (h.declare_agree trivial).imp (fun _ _ _ _ _ => trivial) fun _ _ _ _ hdraft => hdraft
    rw [Draft.readTokens, Draft.readTokens, bind_assoc]
    exact hdeclare.bind fun d₁ d₁' h₁ => ih h₁ hlater hlater'

/-- A line of labels and the line below it are read in step with the joined line. -/
theorem MapsDraft.readLine_join_agree (h : refl.MapsDraft d d')
    (hlexed : first.run.fault? = none) (hlabels : first.lexemes = SourceLine.labelLexemes names)
    (hjoined : joined.lexemes = names.map .labelDef ++ second.lexemes)
    (hfault : joined.run.fault? = none ↔ second.run.fault? = none) :
    Agree AnyFaults refl.MapsDraft (d.readLine first >>= fun d => d.readLine second)
      (d'.readLine joined) := by
  by_cases hsecond : second.run.fault? = none
  · rw [Draft.readLine, SourceLine.tokens_ok.2 ⟨hlexed, rfl⟩, Draft.readLine,
      SourceLine.tokens_ok.2 ⟨hfault.2 hsecond, rfl⟩]
    have hread : ∀ d : Draft, d.readLine second = d.readTokens second second.run.tokens := by
      intro d
      rw [Draft.readLine, SourceLine.tokens_ok.2 ⟨hsecond, rfl⟩]
      rfl
    simp only [hread]
    exact h.readTokens_join_agree hlabels hjoined
  · -- The bad word is on both sides, after the labels of the first line or before them.
    obtain ⟨e', he'⟩ := Draft.exists_readLine_error (hfault.not.2 hsecond) d'
    rw [he']
    cases hfirst : d.readLine first with
    | error e => exact .error trivial
    | ok d₁ =>
      obtain ⟨e, he⟩ := Draft.exists_readLine_error hsecond d₁
      show Agree _ _ (d₁.readLine second) _
      rw [he]
      exact .error trivial

/-- All lines are read in step, those before the line of labels and those after it included. -/
theorem readLines_join_agree {before after after' : List SourceLine}
    (hlexed : first.run.fault? = none) (hlabels : first.lexemes = SourceLine.labelLexemes names)
    (hjoined : joined.lexemes = names.map .labelDef ++ second.lexemes)
    (hfault : joined.run.fault? = none ↔ second.run.fault? = none)
    (hafter : List.Forall₂ SourceLine.SaysSame after after') :
    Agree AnyFaults refl.MapsDraft (Draft.empty.readLines (before ++ first :: second :: after))
      (Draft.empty.readLines (before ++ joined :: after')) := by
  have hbefore : List.Forall₂ SourceLine.SaysSame before before :=
    List.forall₂_same.2 fun line _ => .refl line
  rw [Draft.readLines_append, Draft.readLines_append]
  refine (empty_mapsDraft.readLines_agree_of_saysSame hbefore).bind ?_
  intro d d' h
  have hpair : d.readLines (first :: second :: after) =
      (d.readLine first >>= fun d => d.readLine second) >>= fun d => d.readLines after := by
    rw [Draft.readLines, bind_assoc]
    rfl
  rw [hpair, Draft.readLines]
  refine (h.readLine_join_agree hlexed hlabels hjoined hfault).bind ?_
  intro d₁ d₁' h₁
  exact h₁.readLines_agree_of_saysSame hafter

end Renaming

/-! ## Sources -/

/-- A source with two of its lines joined has the lines that it is made of. -/
theorem Text.splitLines_joined {source : List Char} {before after : List (List Char)}
    {first second : List Char}
    (h : Text.splitLines source = before ++ first :: second :: after) :
    Text.splitLines (['\n'].intercalate (before ++ (first ++ ' ' :: second) :: after)) =
      before ++ (first ++ ' ' :: second) :: after := by
  have hfeed : ∀ line ∈ before ++ first :: second :: after, '\n' ∉ line :=
    fun line hline => notMem_of_mem_splitOn (h ▸ hline)
  refine splitLines_intercalate (by simp) ?_
  intro line hline
  rcases List.mem_append.1 hline with hline | hline
  · exact hfeed line (List.mem_append_left _ hline)
  · rcases List.mem_cons.1 hline with rfl | hline
    · have hfirst := hfeed first (by simp)
      have hsecond := hfeed second (by simp)
      simp [hfirst, hsecond]
    · exact hfeed line (by simp [hline])

namespace Session

/-- A line of labels joins the line below it. Where a line without a comment only declares labels,
the line break behind it can be made a space. The new source has the same bytes, words and addresses
of labels in their order, or both sources are refused. -/
theorem label_lines_join (session : Session) (hvalid : session.settings.isValid = true)
    (file : String) (source : List Char) (before after : List (List Char))
    (first second : List Char) (names : List String)
    (hsource : Text.splitLines source = before ++ first :: second :: after)
    (hcomment : ';' ∉ first)
    (htokens : (SourceLine.ofText file (before.length + 1) first).tokens.map
      (List.map Token.lexeme) = .ok (names.map .labelDef ++ [.lineEnd])) :
    let joined := ['\n'].intercalate (before ++ (first ++ ' ' :: second) :: after)
    (∃ bytes, (session.assemble file source).result = .ok bytes ∧
      (session.assemble file joined).result = .ok bytes ∧
      (session.assemble file joined).session.output.words =
        (session.assemble file source).session.output.words ∧
      (session.assemble file joined).session.output.symbols.addresses =
        (session.assemble file source).session.output.symbols.addresses) ∨
    ∃ d d', (session.assemble file source).result = .error (.diagnostic d) ∧
      (session.assemble file joined).result = .error (.diagnostic d') := by
  intro joined
  obtain ⟨tokens, hread, hlabels⟩ := map_ok.1 htokens
  obtain ⟨hlexed, rfl⟩ := SourceLine.tokens_ok.1 hread
  rw [Int.add_comm] at hlexed hlabels
  obtain ⟨hjoined, hfault⟩ := SourceLine.joined_says hcomment hlexed hlabels second
    (1 + before.length + 1)
  have hlines : SourceLine.ofSource file source =
      SourceLine.numberFrom file 1 before ++
        SourceLine.ofText file (1 + before.length) first ::
          SourceLine.ofText file (1 + before.length + 1) second ::
            SourceLine.numberFrom file (1 + before.length + 1 + 1) after := by
    rw [SourceLine.ofSource, hsource, SourceLine.numberFrom_append]
    rfl
  have hlines' : SourceLine.ofSource file joined =
      SourceLine.numberFrom file 1 before ++
        SourceLine.ofText file (1 + before.length) (first ++ ' ' :: second) ::
          SourceLine.numberFrom file (1 + before.length + 1) after := by
    rw [SourceLine.ofSource, Text.splitLines_joined hsource, SourceLine.numberFrom_append]
    rfl
  have hafter : List.Forall₂ SourceLine.SaysSame
      (SourceLine.numberFrom file (1 + before.length + 1 + (1 : Nat)) after)
      (SourceLine.numberFrom file (1 + before.length + 1) after) := by
    rw [SourceLine.numberFrom_down, List.forall₂_map_left_iff]
    exact List.forall₂_same.2 fun line _ => line.down_saysSame 1
  have hdrafts : Agree AnyFaults Renaming.refl.MapsDraft (Draft.ofSource file source)
      (Draft.ofSource file joined) := by
    rw [Draft.ofSource, Draft.ofSource, hlines, hlines']
    refine Renaming.ofLines_agree_of_readLines (fun _ _ _ => trivial) ?_
    exact Renaming.readLines_join_agree hlexed hlabels hjoined hfault hafter
  rcases Renaming.assemble_agree_of_imp (fun _ _ _ => trivial) hvalid hdrafts with
    ⟨bytes, hbytes, hbytes', houtput⟩ | ⟨d, d', hd, hd', _⟩
  · refine .inl ⟨bytes, hbytes, hbytes', houtput.words, ?_⟩
    rw [houtput.addresses]
    exact List.map_id _
  · exact .inr ⟨d, d', hd, hd'⟩

/-- Two labels on a line that ends with a carriage return join a line with a label of its own. The
carriage return is then white space within the line. -/
theorem label_lines_join_after_return :
    (Session.assemble "x" "nop\na: b:\r c: jz r1, b\nj c".toList ⟨{}, .empty⟩).result =
        .ok [0, 0, 209, 1, 240, 1] ∧
      (Session.assemble "x" "nop\na: b:\r c: jz r1, b\nj c".toList
        ⟨{}, .empty⟩).session.output.symbols.addresses = [("a", 1), ("b", 1), ("c", 1)] := by
  have hbytes : (Session.assemble "x" "nop\na: b:\r\nc: jz r1, b\nj c".toList ⟨{}, .empty⟩).result =
      .ok [0, 0, 209, 1, 240, 1] := by decide +kernel
  have haddresses : (Session.assemble "x" "nop\na: b:\r\nc: jz r1, b\nj c".toList
      ⟨{}, .empty⟩).session.output.symbols.addresses = [("a", 1), ("b", 1), ("c", 1)] := by
    decide +kernel
  have htext : ['\n'].intercalate (["nop".toList] ++
      ("a: b:\r".toList ++ ' ' :: "c: jz r1, b".toList) :: ["j c".toList]) =
        "nop\na: b:\r c: jz r1, b\nj c".toList := by decide +kernel
  have hjoined := label_lines_join ⟨{}, .empty⟩ (by decide) "x"
    "nop\na: b:\r\nc: jz r1, b\nj c".toList ["nop".toList] ["j c".toList] "a: b:\r".toList
    "c: jz r1, b".toList ["a", "b"] (by decide +kernel) (by decide) (by decide +kernel)
  rw [htext] at hjoined
  rcases hjoined with ⟨bytes, hsource, hresult, _, hsymbols⟩ | ⟨d, d', hsource, _⟩
  · rw [hbytes] at hsource
    cases hsource
    exact ⟨hresult, hsymbols.trans haddresses⟩
  · rw [hbytes] at hsource
    cases hsource

end Session

end Risc16
