/-!
# Calls one after another

What keeps a state answers a call by the state and goes into a new one. The next call finds the
state as the call before left it.
-/

namespace Risc16

/-- Answer calls one after another: the answers in the order of the calls, and the state after the
last. -/
def answerAll {σ κ α : Type} (answer : σ → κ → α × σ) (state : σ) : List κ → List α × σ
  | [] => ([], state)
  | call :: rest =>
    let first := answer state call
    let others := answerAll answer first.2 rest
    (first.1 :: others.1, others.2)

end Risc16
