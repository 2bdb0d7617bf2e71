import Risc16.Proofs.FirstFault

/-!
# Looser settings

A larger memory takes all that a smaller one takes, and a machine that lets unwired devices pass
takes all that a strict one takes. The settings decide what is accepted, never what it becomes; and
they have no say in how a source is read.

Results:
1. `Operation.encode_of_looser`: the word of an operation stays what it was.
2. `Program.build_of_looser`: so does the output of a program.
3. `Session.looser_settings_keep_output`: all of that about a source, and what is wrong with the
   source itself is reported whatever the settings.
-/

namespace Risc16

open Outcome

/-- The second settings refuse no more than the first ones. -/
structure Settings.Looser (s s' : Settings) : Prop where
  capacity : s.capacity ≤ s'.capacity
  strictDevices : s'.strictDevices = true → s.strictDevices = true

section

variable {s s' : Settings}

theorem encodeTarget_of_looser {target : Located Target} {n : Nat} (h : s.Looser s')
    (hencode : encodeTarget s target = .ok n) : encodeTarget s' target = .ok n := by
  obtain ⟨haddress, hfits⟩ := encodeTarget_ok.1 hencode
  exact encodeTarget_ok.2 ⟨haddress, Int.lt_of_lt_of_le hfits h.capacity⟩

theorem encodeDevice_of_looser {way : Direction} {device : Located Int} {n : Nat}
    (h : s.Looser s') (hencode : encodeDevice s way device = .ok n) :
    encodeDevice s' way device = .ok n := by
  unfold encodeDevice at hencode ⊢
  split at hencode
  · next hrange =>
    rw [if_pos hrange]
    split at hencode
    · cases hencode
    · next hwired =>
      -- A device that passes is wired, or the first settings are not strict.
      rw [if_neg fun hunwired => hwired ⟨h.strictDevices hunwired.1, hunwired.2⟩]
      exact hencode
  · cases hencode

theorem Operation.encode_of_looser {o : Operation} {word : Nat} (h : s.Looser s')
    (hencode : o.encode s = .ok word) : o.encode s' = .ok word := by
  cases o with
  | nop | alu op a b | inv a | ldi a value => exact hencode
  | transfer way a device =>
    obtain ⟨n, hdevice, hword⟩ := map_ok.1 hencode
    exact map_ok.2 ⟨n, encodeDevice_of_looser h hdevice, hword⟩
  | branch condition a target | jump target =>
    obtain ⟨n, htarget, hword⟩ := map_ok.1 hencode
    exact map_ok.2 ⟨n, encodeTarget_of_looser h htarget, hword⟩

theorem Program.build_of_looser {p : Program} {t : SymbolTable} {o : Output} (h : s.Looser s')
    (hbuild : p.build s t = .ok o) : p.build s' t = .ok o := by
  obtain ⟨hfits, hdeclared, hprogram, hsymbols, hwords⟩ := build_ok.1 hbuild
  refine build_ok.2 ⟨Int.le_trans hfits h.capacity, hdeclared, hprogram, hsymbols, ?_⟩
  exact hwords.imp fun _ _ hencode => Operation.encode_of_looser h hencode

end

namespace Session

variable {a b : Session} {file : String} {source : List Char}

theorem assemble_of_looser {bytes : List UInt8} (h : a.settings.Looser b.settings)
    (hbytes : (a.assemble file source).result = .ok bytes) :
    (b.assemble file source).result = .ok bytes ∧
      (b.assemble file source).session.output = (a.assemble file source).session.output := by
  rw [assemble_result] at hbytes
  obtain ⟨o, hassembly, hcode⟩ := bind_ok.1 hbytes
  have hfirst := mapError_ok.1 hassembly
  have hsecond : (Assembly.ofSource b.settings file source).result = .ok o := by
    rw [Assembly.ofSource_result] at hfirst ⊢
    obtain ⟨draft, hsource, hbuild⟩ := bind_ok.1 hfirst
    exact bind_ok.2 ⟨draft, hsource, Program.build_of_looser h hbuild⟩
  constructor
  · rw [assemble_result, hsecond]
    exact hcode
  · rw [assemble_output, assemble_output, hfirst, hsecond]

/-- What is wrong with the source itself is found before the settings are asked. -/
theorem assemble_fromSource {d : Diagnostic} (hcause : d.cause.FromSource) :
    (a.assemble file source).result = .error (.diagnostic d) ↔
      Draft.ofSource file source = .error d := by
  rw [assemble_diagnostic]
  refine ⟨?_, .inl⟩
  rintro (hsource | ⟨draft, hsource, hbuild, _⟩)
  · exact hsource
  · exact absurd hcause (Draft.not_fromSource_of_build hsource hbuild)

/-- Looser settings keep the output. What a machine assembles, one with as much memory or more and
no stricter about its devices assembles to the same bytes, with the same output and so the same
symbol table and listing. A bad word, a bad statement, a label that is declared twice and one that
is missing are reported with any settings if they are with some, and in the same way. -/
theorem looser_settings_keep_output (a b : Session) (file : String) (source : List Char) :
    (a.settings.Looser b.settings → ∀ bytes, (a.assemble file source).result = .ok bytes →
      (b.assemble file source).result = .ok bytes ∧
        (b.assemble file source).session.output = (a.assemble file source).session.output) ∧
    ∀ d : Diagnostic, d.cause.FromSource →
      ((a.assemble file source).result = .error (.diagnostic d) ↔
        (b.assemble file source).result = .error (.diagnostic d)) := by
  refine ⟨fun h bytes => assemble_of_looser h, ?_⟩
  intro d hcause
  rw [assemble_fromSource hcause, assemble_fromSource hcause]

/-- A program that fills a strict machine of two words goes into one of 256 that is not strict, and
a missing label is reported by both. -/
theorem looser_settings_keep_output_full_memory :
    (Session.assemble "a" "top: in r1, BTNC\njz r1, top".toList ⟨⟨256, false⟩, .empty⟩).result =
        .ok [177, 16, 209, 0] ∧
      (Session.assemble "a" "top: in r1, BTNC\njz r1, top".toList
        ⟨⟨256, false⟩, .empty⟩).session.output.symbols.addresses = [("top", 0)] ∧
      ∃ d : Diagnostic, d.cause = .undefinedLabel "top" [] ∧
        (Session.assemble "a" "j top".toList ⟨⟨256, false⟩, .empty⟩).result =
          .error (.diagnostic d) := by
  have hfirst : (Session.assemble "a" "top: in r1, BTNC\njz r1, top".toList
      ⟨⟨2, true⟩, .empty⟩).result = .ok [177, 16, 209, 0] := by decide +kernel
  let d : Diagnostic := ⟨.undefinedLabel "top" [], some ⟨"a", 1, 3⟩, some "j top"⟩
  have hcause : d.cause.FromSource := trivial
  have hmissing : (Session.assemble "a" "j top".toList ⟨⟨2, true⟩, .empty⟩).result =
      .error (.diagnostic d) := by decide +kernel
  have hlooser : Settings.Looser ⟨2, true⟩ ⟨256, false⟩ := ⟨by decide, by decide⟩
  obtain ⟨hsecond, houtput⟩ := (looser_settings_keep_output ⟨⟨2, true⟩, .empty⟩
    ⟨⟨256, false⟩, .empty⟩ "a" "top: in r1, BTNC\njz r1, top".toList).1 hlooser _ hfirst
  refine ⟨hsecond, ?_, d, rfl, ?_⟩
  · rw [houtput]
    decide +kernel
  · exact ((looser_settings_keep_output ⟨⟨2, true⟩, .empty⟩ ⟨⟨256, false⟩, .empty⟩ "a"
      "j top".toList).2 d hcause).1 hmissing

end Session

end Risc16
