/-!
# Order of texts
-/

namespace Risc16.Text

/-- The order of texts by the code points of their characters. -/
def codePointLe : List Char → List Char → Bool
  | [], _ => true
  | _ :: _, [] => false
  | a :: as, b :: bs => a.toNat < b.toNat || (a.toNat == b.toNat && codePointLe as bs)

/-- The order of code points is the order of texts. -/
theorem codePointLe_iff {a b : List Char} : codePointLe a b = true ↔ ¬ b < a := by
  induction a generalizing b with
  | nil => exact iff_of_true rfl (List.not_lt_nil b)
  | cons c a ih =>
    cases b with
    | nil => exact iff_of_false Bool.false_ne_true (Classical.not_not.2 (List.nil_lt_cons c a))
    | cons d b =>
      have hlt : d < c ↔ d.toNat < c.toNat := Iff.rfl
      rw [codePointLe, Bool.or_eq_true, decide_eq_true_iff, Bool.and_eq_true, beq_iff_eq, ih,
        List.cons_lt_cons_iff, hlt, ← Char.toNat_inj]
      by_cases hrest : b < a
      · simp only [hrest, not_true, and_false, or_false, and_true]
        omega
      · simp only [hrest, not_false_iff, and_true, and_false, or_false]
        omega

end Risc16.Text
