import Risc16.Proofs.Calls
import Risc16.Proofs.Grammar
import Risc16.Token.Readers

/-!
# Readers do not disturb each other

The tokens of a line can be taken one at a time, by any number of readers whose calls come in any
order. Each reader gets the tokens of the whole run of the line in their order, then the bad word if
there is one, and from then on nothing.

What a stream has still to give is itself a run: the tokens left, and the bad word after them. To
ask a stream for a token is to take the first off this run.

Results:
1. `TokenStream.next_remaining`: a stream gives what is left of its run.
2. `TokenRun.next_after`: what a run gives after some of its tokens were taken.
3. `Readers.perform_stream`, `Readers.stream_after`: one call, and many calls, from the view of one
   reader.
4. `Readers.readers_follow_run`: with that, the answer to each call.
-/

namespace Risc16

/-! ## What is left of a run -/

namespace TokenRun

/-- Take the next token off a run, or the bad word behind the last. -/
def next : TokenRun → Yield × TokenRun
  | ⟨token :: rest, fault?⟩ => (.token token, ⟨rest, fault?⟩)
  | ⟨[], some d⟩ => (.fault d, ⟨[], none⟩)
  | ⟨[], none⟩ => (.exhausted, ⟨[], none⟩)

/-- What is left of a run after some calls. -/
def after (run : TokenRun) (calls : Nat) : TokenRun :=
  ⟨run.tokens.drop calls, if calls ≤ run.tokens.length then run.fault? else none⟩

variable {run : TokenRun} {calls : Nat}

theorem after_zero (run : TokenRun) : run.after 0 = run := by
  rw [after, List.drop_zero, if_pos (Nat.zero_le _)]

theorem next_after_token {token : Token} (h : run.tokens[calls]? = some token) :
    (run.after calls).next = (.token token, run.after (calls + 1)) := by
  obtain ⟨hlt, htoken⟩ := List.getElem?_eq_some_iff.1 h
  have hle : calls + 1 ≤ run.tokens.length := hlt
  unfold after
  rw [List.drop_eq_getElem_cons hlt, htoken, if_pos (Nat.le_of_lt hlt), if_pos hle]
  rfl

theorem after_of_lt (h : run.tokens.length < calls) : run.after calls = ⟨[], none⟩ := by
  rw [after, List.drop_of_length_le (Nat.le_of_lt h), if_neg (Nat.not_le.2 h)]

theorem after_length : run.after run.tokens.length = ⟨[], run.fault?⟩ := by
  rw [after, List.drop_length, if_pos (Nat.le_refl _)]

/-- Each call takes one token off, and after the last token the bad word. -/
theorem next_after (run : TokenRun) (calls : Nat) :
    (run.after calls).next.2 = run.after (calls + 1) := by
  rcases Nat.lt_trichotomy calls run.tokens.length with hlt | rfl | hgt
  · rw [next_after_token (List.getElem?_eq_getElem hlt)]
  · rw [after_length, after_of_lt (Nat.lt_succ_self _)]
    cases run.fault? <;> rfl
  · rw [after_of_lt hgt, after_of_lt (Nat.lt_succ_of_lt hgt)]
    rfl

end TokenRun

namespace TokenStream

/-- What a stream has still to give. -/
def remaining (s : TokenStream) : TokenRun :=
  if s.exhausted then ⟨[], none⟩ else s.line.runPieces s.leading s.pieces

/-- A stream gives the first of what it has still to give, and then has the rest. -/
theorem next_remaining (s : TokenStream) :
    s.remaining.next = (s.next.1, s.next.2.remaining) := by
  obtain ⟨line, pieces, leading, exhausted⟩ := s
  cases exhausted with
  | true => rfl
  | false =>
    cases pieces with
    | nil => rfl
    | cons piece pieces =>
      cases hclassify : piece.classify leading with
      | error fault =>
        simp only [next, remaining, SourceLine.runPieces, hclassify]
        rfl
      | ok lexeme =>
        simp only [next, remaining, SourceLine.runPieces, hclassify]
        rfl

end TokenStream

/-- A line with a bad word is not read to its end. -/
theorem SourceLine.ne_lineEnd_of_fault {line : SourceLine} {leading : Bool} {pieces : List Piece}
    {d : Diagnostic} (h : (line.runPieces leading pieces).fault? = some d) :
    ∀ token ∈ (line.runPieces leading pieces).tokens, token.lexeme ≠ .lineEnd := by
  induction pieces generalizing leading with
  | nil => cases h
  | cons piece pieces ih =>
    unfold runPieces at h ⊢
    split at h
    · simp
    · next lexeme hlexeme =>
      intro token htoken
      rcases List.mem_cons.1 htoken with rfl | htoken
      · show lexeme ≠ .lineEnd
        rintro rfl
        exact Piece.classify_ne_lineEnd hlexeme
      · exact ih h token htoken

/-! ## One call -/

namespace Readers

variable {r : Readers} {reader : Nat} {stream : TokenStream}

theorem perform_line (r : Readers) (call : Call) : (r.perform call).2.line = r.line := by
  cases call with
  | start => rfl
  | next other =>
    unfold perform
    dsimp only
    split <;> rfl

/-- Only a start adds a reader. -/
theorem perform_length (r : Readers) (call : Call) :
    (r.perform call).2.streams.length = r.streams.length + [call].count .start := by
  cases call with
  | start => exact List.length_append
  | next other =>
    unfold perform
    dsimp only
    split
    · rfl
    · exact List.length_set

theorem perform_next (h : r.streams[reader]? = some stream) :
    r.perform (.next reader) =
      (.gave stream.next.1, { r with streams := r.streams.set reader stream.next.2 }) := by
  rw [perform, h]

/-- A call takes a token off the reader that it asks, and nothing off any other. -/
theorem perform_stream (call : Call) (h : r.streams[reader]? = some stream) :
    (r.perform call).2.streams[reader]? =
      some (if call = .next reader then stream.next.2 else stream) := by
  have hlt : reader < r.streams.length := (List.getElem?_eq_some_iff.1 h).1
  cases call with
  | start =>
    rw [if_neg (by nofun), ← h]
    exact List.getElem?_append_left hlt
  | next other =>
    by_cases hsame : other = reader
    · subst hsame
      rw [perform_next h, if_pos rfl]
      exact List.getElem?_set_self hlt
    · rw [if_neg (fun heq => hsame (Call.next.inj heq)), ← h]
      unfold perform
      dsimp only
      split
      · rfl
      · exact List.getElem?_set_ne hsame

/-! ## Many calls -/

variable {line : SourceLine}

theorem line_after (line : SourceLine) (calls : List Call) :
    (answerAll perform (new line) calls).2.line = line := by
  refine answerAll_invariant (fun _ (r : Readers) => r.line = line) rfl ?_ calls
  intro calls r call h
  rw [perform_line, h]

theorem length_after (line : SourceLine) (calls : List Call) :
    (answerAll perform (new line) calls).2.streams.length = calls.count .start := by
  refine answerAll_invariant (fun calls (r : Readers) => r.streams.length = calls.count .start)
    ?_ ?_ calls
  · rfl
  · intro calls r call h
    rw [perform_length, h, List.count_append]

/-- From its start on, a reader has the run of the line less what it was asked for. -/
theorem stream_after (line : SourceLine) (before since : List Call) :
    ∃ stream, (answerAll perform (new line) (before ++ .start :: since)).2.streams[
          before.count .start]? = some stream ∧
      stream.remaining = line.run.after (since.count (.next (before.count .start))) := by
  rw [answerAll_append, answerAll, ← length_after line before]
  generalize hstate : (answerAll perform (new line) before).2 = r
  have hline : r.line = line := hstate ▸ line_after line before
  -- The induction is on the calls since the start, with the rest of this one reader as invariant.
  refine answerAll_invariant (fun since (r' : Readers) => ∃ stream,
    r'.streams[r.streams.length]? = some stream ∧
      stream.remaining = line.run.after (since.count (.next r.streams.length))) ?_ ?_ since
  · refine ⟨line.stream, ?_, (line.run.after_zero).symm⟩
    rw [perform, hline]
    exact List.getElem?_concat_length
  · rintro since r' call ⟨stream, hstream, hremaining⟩
    refine ⟨_, perform_stream call hstream, ?_⟩
    rw [List.count_append, List.count_singleton]
    split
    · next hcall =>
      rw [hcall, beq_self_eq_true, if_pos rfl, ← TokenRun.next_after, ← hremaining,
        stream.next_remaining]
    · next hcall =>
      rw [beq_eq_false_iff_ne.2 hcall, if_neg Bool.false_ne_true, Nat.add_zero, hremaining]

/-- Readers follow the run of the line. Take any reader of a line, at any moment of any calls: the
calls before its start, those since, and those to come may ask it and other readers in any order,
and start more. Of the calls that ask this reader, each gets the token of the whole run that has the
same place there. The call behind the last good token gets the bad word if there is one, and all
others are told that there is nothing left. The end of the line is the last token, and a line with a
bad word has none. -/
theorem readers_follow_run (line : SourceLine) (before since later : List Call) :
    let reader := before.count .start
    let earlier := before ++ .start :: since
    let asked := since.count (.next reader)
    let given := answers line (earlier ++ .next reader :: later)
    given[before.length]? = some (.started reader) ∧
    (∀ token, line.run.tokens[asked]? = some token →
      given[earlier.length]? = some (.gave (.token token))) ∧
    (∀ d, line.run.fault? = some d → asked = line.run.tokens.length →
      given[earlier.length]? = some (.gave (.fault d))) ∧
    (line.run.tokens.length < asked ∨ asked = line.run.tokens.length ∧ line.run.fault? = none →
      given[earlier.length]? = some (.gave .exhausted)) ∧
    (line.run.fault? = none → EndsLine line.run.tokens) ∧
    ∀ d, line.run.fault? = some d → ∀ token ∈ line.run.tokens, token.lexeme ≠ .lineEnd := by
  intro reader earlier asked given
  obtain ⟨stream, hstream, hremaining⟩ := stream_after line before since
  have hnext : stream.next.1 = (line.run.after asked).next.1 := by
    rw [← hremaining, stream.next_remaining]
  have hgiven : given[earlier.length]? = some (.gave (line.run.after asked).next.1) := by
    show (answerAll _ _ _).1[_]? = _
    rw [getElem?_answerAll, perform_next hstream, hnext]
  rw [hgiven]
  refine ⟨?_, ?_, ?_, ?_, SourceLine.run_endsLine, ?_⟩
  · have hcalls : earlier ++ Call.next reader :: later =
        before ++ .start :: (since ++ .next reader :: later) := by
      rw [List.append_assoc, List.cons_append]
    show (answerAll _ _ _).1[_]? = _
    rw [hcalls, getElem?_answerAll, perform, length_after]
  · intro token htoken
    rw [TokenRun.next_after_token htoken]
  · intro d hfault hasked
    rw [hasked, TokenRun.after_length, hfault]
    rfl
  · rintro (hlt | ⟨hasked, hfault⟩)
    · rw [TokenRun.after_of_lt hlt]
      rfl
    · rw [hasked, TokenRun.after_length, hfault]
      rfl
  · intro d
    exact SourceLine.ne_lineEnd_of_fault

/-- Two readers of a line with a bad word. The second starts after the first was asked, and is asked
in turn with it; it gets the bad word at its third call, and nothing at its fourth. -/
theorem readers_follow_run_in_turn :
    let line := SourceLine.ofText "f" 1 "a: b 1x".toList
    let before : List Call := [.start, .next 0]
    let since : List Call := [.next 1, .next 0, .next 1, .next 0]
    let fault : Diagnostic := ⟨.word "1x" .integer, some ⟨"f", 1, 6⟩, some "a: b 1x"⟩
    line.run.fault? = some fault ∧ line.run.tokens[1]? = some ⟨.mnemonic "b", "f", 1, 4⟩ ∧
      (answers line (before ++ .start :: [.next 1] ++ .next 1 :: []))[4]? =
        some (.gave (.token ⟨.mnemonic "b", "f", 1, 4⟩)) ∧
      (answers line (before ++ .start :: since ++ .next 1 :: [.next 0]))[7]? =
        some (.gave (.fault fault)) ∧
      (answers line (before ++ .start :: (since ++ [.next 1]) ++ .next 1 :: []))[8]? =
        some (.gave .exhausted) := by
  intro line before since fault
  have hfault : line.run.fault? = some fault := by decide +kernel
  have htoken : line.run.tokens[1]? = some ⟨.mnemonic "b", "f", 1, 4⟩ := by decide +kernel
  obtain ⟨_, hsecond, _⟩ := readers_follow_run line before [.next 1] []
  obtain ⟨_, _, hthird, _⟩ := readers_follow_run line before since [.next 0]
  obtain ⟨_, _, _, hfourth, _⟩ := readers_follow_run line before (since ++ [.next 1]) []
  exact ⟨hfault, htoken, hsecond _ htoken, hthird _ hfault (by decide +kernel),
    hfourth (.inl (by decide +kernel))⟩

end Readers

end Risc16
