import Mathlib.Data.List.Induction
import Risc16.Calls

/-!
# Runs of calls

What holds of the state after any calls follows from what one call does to it, by induction on the
calls from the last one back.

Results:
1. `answerAll_append`: later calls find the state that the earlier ones left.
2. `getElem?_answerAll`: each call has its answer at its place.
3. `answerAll_invariant`: what each call keeps holds after all calls.
-/

namespace Risc16

variable {σ κ α : Type} {answer : σ → κ → α × σ}

/-- The calls after some others find the state as those left it. -/
theorem answerAll_append (state : σ) (earlier later : List κ) :
    answerAll answer state (earlier ++ later) =
      ((answerAll answer state earlier).1 ++
          (answerAll answer (answerAll answer state earlier).2 later).1,
        (answerAll answer (answerAll answer state earlier).2 later).2) := by
  induction earlier generalizing state with
  | nil => rfl
  | cons call earlier ih =>
    rw [List.cons_append, answerAll, answerAll, ih]
    rfl

/-- The state after one more call. -/
theorem answerAll_concat (state : σ) (calls : List κ) (call : κ) :
    (answerAll answer state (calls ++ [call])).2 =
      (answer (answerAll answer state calls).2 call).2 := by
  rw [answerAll_append]
  rfl

theorem length_answerAll (state : σ) (calls : List κ) :
    (answerAll answer state calls).1.length = calls.length := by
  induction calls generalizing state with
  | nil => rfl
  | cons call calls ih => rw [answerAll, List.length_cons, List.length_cons, ih]

/-- Each call has its answer at its place. -/
theorem getElem?_answerAll (state : σ) (earlier later : List κ) (call : κ) :
    (answerAll answer state (earlier ++ call :: later)).1[earlier.length]? =
      some (answer (answerAll answer state earlier).2 call).1 := by
  rw [answerAll_append, answerAll, ← length_answerAll state earlier,
    List.getElem?_append_right (Nat.le_refl _), Nat.sub_self, List.getElem?_cons_zero]

/-- What holds at the start and is kept by each call holds after all calls. What is said of the
state may depend on the calls that led to it. -/
theorem answerAll_invariant (Reached : List κ → σ → Prop) {state : σ} (hstart : Reached [] state)
    (hstep : ∀ calls state call, Reached calls state →
      Reached (calls ++ [call]) (answer state call).2) (calls : List κ) :
    Reached calls (answerAll answer state calls).2 := by
  induction calls using List.reverseRecOn with
  | nil => exact hstart
  | append_singleton calls call ih =>
    rw [answerAll_concat]
    exact hstep calls _ call ih

end Risc16
