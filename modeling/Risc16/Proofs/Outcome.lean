import Mathlib.Data.List.Forall2

/-!
# Outcomes of fallible steps

When a chain of steps succeeds and when it fails, and the same for a step that is taken for each
element of a list. Proofs about the assembler take a computation apart with these and need not
unfold it.

1. `bind_ok`, `map_ok`, `mapError_ok`: success of a chain.
2. `bind_error`, `map_error`, `mapError_error`: its failure.
3. `mapM_ok`: success on a list is success on each element.
4. `mapM_error`: failure on a list is the failure of the first element that fails.
5. `Agree.bind`: two chains agree if their steps do.
-/

namespace Risc16.Outcome

variable {ε ε' α β : Type}

/-! ## Chains -/

theorem bind_ok {x : Except ε α} {f : α → Except ε β} {b : β} :
    (x >>= f) = .ok b ↔ ∃ a, x = .ok a ∧ f a = .ok b := by
  cases x with
  | error e => simp [bind, Except.bind]
  | ok a => simp [bind, Except.bind]

theorem bind_error {x : Except ε α} {f : α → Except ε β} {e : ε} :
    (x >>= f) = .error e ↔ x = .error e ∨ ∃ a, x = .ok a ∧ f a = .error e := by
  cases x with
  | error e => simp [bind, Except.bind]
  | ok a => simp [bind, Except.bind]

theorem pure_ok {a b : α} : (pure a : Except ε α) = .ok b ↔ a = b := by
  simp [pure, Except.pure]

theorem map_ok {x : Except ε α} {f : α → β} {b : β} :
    x.map f = .ok b ↔ ∃ a, x = .ok a ∧ f a = b := by
  cases x with
  | error e => simp [Except.map]
  | ok a => simp [Except.map]

theorem map_error {x : Except ε α} {f : α → β} {e : ε} : x.map f = .error e ↔ x = .error e := by
  cases x with
  | error e => simp [Except.map]
  | ok a => simp [Except.map]

theorem mapError_ok {x : Except ε α} {f : ε → ε'} {a : α} : x.mapError f = .ok a ↔ x = .ok a := by
  cases x with
  | error e => simp [Except.mapError]
  | ok a => simp [Except.mapError]

theorem mapError_error {x : Except ε α} {f : ε → ε'} {e' : ε'} :
    x.mapError f = .error e' ↔ ∃ e, x = .error e ∧ f e = e' := by
  cases x with
  | error e => simp [Except.mapError]
  | ok a => simp [Except.mapError]

/-! ## Lists -/

/-- A step succeeds on a list if it succeeds on each element, with the results in order. -/
theorem mapM_ok {f : α → Except ε β} {as : List α} {bs : List β} :
    as.mapM f = .ok bs ↔ List.Forall₂ (fun a b => f a = .ok b) as bs := by
  induction as generalizing bs with
  | nil => rw [List.mapM_nil, pure_ok, List.forall₂_nil_left_iff, eq_comm]
  | cons a as ih =>
    simp only [List.mapM_cons, bind_ok, pure_ok, ih, List.forall₂_cons_left_iff]
    constructor
    · rintro ⟨b, hb, rest, hrest, rfl⟩
      exact ⟨b, rest, hb, hrest, rfl⟩
    · rintro ⟨b, rest, hb, hrest, rfl⟩
      exact ⟨b, hb, rest, hrest, rfl⟩

/-- A step fails on a list with the failure of the first element on which it fails. -/
theorem mapM_error {f : α → Except ε β} {as : List α} {e : ε} :
    as.mapM f = .error e ↔
      ∃ before a after, as = before ++ a :: after ∧ (∀ x ∈ before, ∃ b, f x = .ok b) ∧
        f a = .error e := by
  induction as with
  | nil => simp [pure, Except.pure]
  | cons a as ih =>
    simp only [List.mapM_cons, bind_error]
    constructor
    · rintro (h | ⟨b, hb, h | ⟨bs, _, h⟩⟩)
      · exact ⟨[], a, as, rfl, by simp, h⟩
      · obtain ⟨before, x, after, rfl, hbefore, hx⟩ := ih.1 h
        refine ⟨a :: before, x, after, rfl, ?_, hx⟩
        intro y hy
        rcases List.mem_cons.1 hy with rfl | hy
        · exact ⟨b, hb⟩
        · exact hbefore y hy
      · cases h
    · rintro ⟨before, x, after, h, hbefore, hx⟩
      cases before with
      | nil =>
        cases h
        exact .inl hx
      | cons y before =>
        cases h
        obtain ⟨b, hb⟩ := hbefore a List.mem_cons_self
        have hrest := ih.2 ⟨before, x, after, rfl,
          fun z hz => hbefore z (List.mem_cons_of_mem a hz), hx⟩
        exact .inr ⟨b, hb, .inl hrest⟩

theorem mapM_mapError (f : α → Except ε β) (g : ε → ε') (as : List α) :
    (as.mapM f).mapError g = as.mapM fun a => (f a).mapError g := by
  induction as with
  | nil => rfl
  | cons a as ih =>
    rw [List.mapM_cons, List.mapM_cons, ← ih]
    cases f a with
    | error e => rfl
    | ok b => cases as.mapM f <;> rfl

theorem mapM_congr {γ : Type} {f : α → Except ε β} {g : γ → Except ε β} {as : List α}
    {cs : List γ} (h : List.Forall₂ (fun a c => g c = f a) as cs) : cs.mapM g = as.mapM f := by
  induction h with
  | nil => rfl
  | cons hhead _ ih => rw [List.mapM_cons, List.mapM_cons, hhead, ih]

theorem forall₂_getElem? {R : α → β → Prop} {as : List α} {bs : List β} {n : Nat} {a : α}
    (h : List.Forall₂ R as bs) (ha : as[n]? = some a) : ∃ b, bs[n]? = some b ∧ R a b := by
  obtain ⟨hn, rfl⟩ := List.getElem?_eq_some_iff.1 ha
  have hn' : n < bs.length := h.length_eq ▸ hn
  exact ⟨_, List.getElem?_eq_getElem hn', h.get hn hn'⟩

/-! ## Two runs -/

/-- Two runs agree: both succeed, with results that `R` relates, or both fail, with failures that
`E` relates. -/
inductive Agree {α' : Type} (E : ε → ε' → Prop) (R : α → α' → Prop) :
    Except ε α → Except ε' α' → Prop
  | ok {a : α} {a' : α'} : R a a' → Agree E R (.ok a) (.ok a')
  | error {e : ε} {e' : ε'} : E e e' → Agree E R (.error e) (.error e')

section

variable {α' β' : Type} {E : ε → ε' → Prop} {R : α → α' → Prop} {S : β → β' → Prop}
  {x : Except ε α} {x' : Except ε' α'}

/-- Chains agree if their first steps do, and then all that follows on related results. What the
first steps gave is known to what follows. -/
theorem Agree.bind_of_ok {f : α → Except ε β} {f' : α' → Except ε' β'} (h : Agree E R x x')
    (hf : ∀ a a', x = .ok a → x' = .ok a' → R a a' → Agree E S (f a) (f' a')) :
    Agree E S (x >>= f) (x' >>= f') := by
  cases h with
  | ok hresult => exact hf _ _ rfl rfl hresult
  | error hfailure => exact .error hfailure

theorem Agree.bind {f : α → Except ε β} {f' : α' → Except ε' β'} (h : Agree E R x x')
    (hf : ∀ a a', R a a' → Agree E S (f a) (f' a')) : Agree E S (x >>= f) (x' >>= f') :=
  h.bind_of_ok fun a a' _ _ => hf a a'

/-- What is known of both outcomes may be used to relate them in another way. -/
theorem Agree.imp {E' : ε → ε' → Prop} {R' : α → α' → Prop} (h : Agree E R x x')
    (herror : ∀ e e', x = .error e → x' = .error e' → E e e' → E' e e')
    (hok : ∀ a a', x = .ok a → x' = .ok a' → R a a' → R' a a') : Agree E' R' x x' := by
  cases h with
  | ok hresult => exact .ok (hok _ _ rfl rfl hresult)
  | error hfailure => exact .error (herror _ _ rfl rfl hfailure)

theorem Agree.map {f : α → β} {f' : α' → β'} (h : Agree E R x x')
    (hf : ∀ a a', R a a' → S (f a) (f' a')) : Agree E S (x.map f) (x'.map f') := by
  cases h with
  | ok hresult => exact .ok (hf _ _ hresult)
  | error hfailure => exact .error hfailure

/-- Runs agree if they look the same. -/
theorem Agree.of_eq {γ δ : Type} {f : α → γ} {f' : α' → γ} {g : ε → δ} {g' : ε' → δ}
    (h : (x'.map f').mapError g' = (x.map f).mapError g) :
    Agree (fun e e' => g' e' = g e) (fun a a' => f' a' = f a) x x' := by
  cases x with
  | ok a =>
    cases x' with
    | ok a' => exact .ok (Except.ok.inj h)
    | error e' => cases h
  | error e =>
    cases x' with
    | ok a' => cases h
    | error e' => exact .error (Except.error.inj h)

end

end Risc16.Outcome
