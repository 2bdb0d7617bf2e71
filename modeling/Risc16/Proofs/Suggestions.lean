import Mathlib.Algebra.Order.Field.Basic
import Mathlib.Algebra.Order.Ring.Rat
import Mathlib.Data.List.Perm.Subperm
import Mathlib.Data.Prod.Lex
import Mathlib.Data.String.Basic
import Risc16.Proofs.LinkedProgram

/-!
# Suggestions

The report about a label that is not declared offers declared names that it may stand for. They are
ranked by their likeness to the label, and those that are equally like by the order of names, so no
two names have the same rank. Hence the best three do not depend on the order of the declarations.

Results:
1. `Text.closeNames_eq`: the close names are the best three of those that reach the cutoff.
2. `Text.suggests_closeNames`, `Text.Suggests.unique`: what makes a list of names the suggestions
   for a word, and that there is only one such list.
3. `offeredIn_didYouMean?`: a hint tells the names that it offers.
4. `SymbolTable.suggestions_ignore_order`: two tables with the same names suggest the same, and
   report a missing label in the same way.
-/

namespace Risc16

namespace Text

/-! ## Ranks -/

/-- A likeness as a number. -/
def Likeness.ratio (l : Likeness) : ℚ :=
  2 * l.common / l.total

theorem Likeness.isClose_iff {l : Likeness} (h : 0 < l.total) :
    l.isClose = true ↔ 3 / 5 ≤ l.ratio := by
  have htotal : (0 : ℚ) < l.total := Nat.cast_pos.2 h
  rw [isClose, decide_eq_true_iff, ratio, div_le_div_iff₀ (by norm_num) htotal]
  norm_cast
  omega

theorem Likeness.lt_iff {l m : Likeness} (hl : 0 < l.total) (hm : 0 < m.total) :
    l.lt m = true ↔ l.ratio < m.ratio := by
  have hltotal : (0 : ℚ) < l.total := Nat.cast_pos.2 hl
  have hmtotal : (0 : ℚ) < m.total := Nat.cast_pos.2 hm
  rw [Likeness.lt, decide_eq_true_iff, ratio, ratio, div_lt_div_iff₀ hltotal hmtotal, mul_assoc,
    mul_assoc]
  norm_cast
  omega

theorem likeness_total_pos (word name : List Char) : 0 < (likeness word name).total := by
  unfold likeness
  split
  · exact Nat.two_pos
  · next hlength =>
    rw [Nat.add_comm] at hlength
    exact Nat.pos_of_ne_zero hlength

/-- How like a name is to a word. -/
def ratio (word name : String) : ℚ :=
  (likeness word.toList name.toList).ratio

/-- The rank of a name among those that a word may stand for: by its likeness to the word, and then
by the order of names. -/
def rank (word name : String) : ℚ ×ₗ String :=
  toLex (ratio word name, name)

theorem rank_injective (word : String) : Function.Injective (rank word) :=
  fun _ _ h => congrArg Prod.snd (toLex.injective h)

theorem rank_lt_of_ratio_lt {word a b : String} (h : ratio word a < ratio word b) :
    rank word a < rank word b :=
  Prod.Lex.toLex_lt_toLex.2 (.inl h)

/-- Candidates are compared by the ranks of their names. -/
theorem ranksBefore_iff (word a b : String) :
    Candidate.ranksBefore ⟨likeness word.toList a.toList, a⟩ ⟨likeness word.toList b.toList, b⟩ =
      true ↔ rank word b ≤ rank word a := by
  have ha := likeness_total_pos word.toList a.toList
  have hb := likeness_total_pos word.toList b.toList
  have hname : codePointLe b.toList a.toList = true ↔ b ≤ a := by
    rw [codePointLe_iff, ← String.lt_iff_toList_lt, not_lt]
  rw [Candidate.ranksBefore, Bool.or_eq_true, Bool.and_eq_true, Bool.not_eq_true', hname,
    ← Bool.not_eq_true, Likeness.lt_iff hb ha, Likeness.lt_iff ha hb, rank, rank,
    Prod.Lex.toLex_le_toLex, not_lt]
  constructor
  · rintro (hlt | ⟨hle, hname⟩)
    · exact .inl hlt
    · rcases hle.lt_or_eq with hlt | heq
      · exact .inl hlt
      · exact .inr ⟨heq, hname⟩
  · rintro (hlt | ⟨heq, hname⟩)
    · exact .inl hlt
    · exact .inr ⟨heq.le, hname⟩

/-! ## The names that are close -/

/-- The names that reach the cutoff, the best first. -/
def ranked (word : String) (names : List String) : List String :=
  (names.filter fun name => 3 / 5 ≤ ratio word name).mergeSort
    fun a b => rank word b ≤ rank word a

/-- The close names are the best three of those that reach the cutoff. -/
theorem closeNames_eq (word : String) (names : List String) :
    closeNames word names = (ranked word names).take 3 := by
  have hclose : ∀ name : String,
      (likeness word.toList name.toList).isClose = decide (3 / 5 ≤ ratio word name) := by
    intro name
    rw [Bool.eq_iff_iff, decide_eq_true_iff, ratio,
      Likeness.isClose_iff (likeness_total_pos word.toList name.toList)]
  have hrank : ∀ a b : String, decide (rank word b ≤ rank word a) =
      Candidate.ranksBefore ⟨likeness word.toList a.toList, a⟩
        ⟨likeness word.toList b.toList, b⟩ := by
    intro a b
    rw [Bool.eq_iff_iff, decide_eq_true_iff, ranksBefore_iff]
  simp only [closeNames, List.filter_map, Function.comp_def, hclose]
  rw [← List.map_mergeSort fun a _ b _ => hrank a b, ← List.map_take, List.map_map]
  exact List.map_id _

section

variable {word name : String} {names : List String}

theorem ranked_perm (word : String) (names : List String) :
    (ranked word names).Perm (names.filter fun name => 3 / 5 ≤ ratio word name) :=
  List.mergeSort_perm _ _

theorem mem_ranked : name ∈ ranked word names ↔ name ∈ names ∧ 3 / 5 ≤ ratio word name := by
  rw [(ranked_perm word names).mem_iff, List.mem_filter, decide_eq_true_iff]

theorem nodup_ranked (word : String) (h : names.Nodup) : (ranked word names).Nodup :=
  (ranked_perm word names).nodup_iff.2 (h.filter _)

theorem pairwise_ranked (word : String) (h : names.Nodup) :
    (ranked word names).Pairwise fun a b => rank word b < rank word a := by
  have hsorted : (ranked word names).Pairwise fun a b =>
      decide (rank word b ≤ rank word a) = true := by
    refine List.pairwise_mergeSort ?_ ?_ _
    · intro a b c hab hbc
      rw [decide_eq_true_iff] at hab hbc ⊢
      exact hbc.trans hab
    · intro a b
      rw [Bool.or_eq_true, decide_eq_true_iff, decide_eq_true_iff]
      exact le_total _ _
  refine (hsorted.and (nodup_ranked word h)).imp ?_
  rintro a b ⟨hle, hne⟩
  exact (of_decide_eq_true hle).lt_of_ne fun heq => hne (rank_injective word heq).symm

theorem mem_drop_ranked {n : Nat} (hname : name ∈ names) (hcutoff : 3 / 5 ≤ ratio word name)
    (hnot : name ∉ (ranked word names).take n) : name ∈ (ranked word names).drop n := by
  have hmem : name ∈ (ranked word names).take n ++ (ranked word names).drop n := by
    rw [List.take_append_drop]
    exact mem_ranked.2 ⟨hname, hcutoff⟩
  exact (List.mem_append.1 hmem).resolve_left hnot

end

/-- What a word may stand for: `close` has at most three of the names, the best first. A name that
reaches the cutoff is left out only if there are three better ones. -/
structure Suggests (word : String) (names close : List String) : Prop where
  nodup : close.Nodup
  length_le : close.length ≤ 3
  declared : ∀ name ∈ close, name ∈ names ∧ 3 / 5 ≤ ratio word name
  descending : close.Pairwise fun a b => rank word b < rank word a
  omitted : ∀ name ∈ names, name ∉ close → ∀ listed ∈ close, rank word name < rank word listed
  full : ∀ name ∈ names, name ∉ close → 3 / 5 ≤ ratio word name → close.length = 3

theorem suggests_closeNames (word : String) {names : List String} (h : names.Nodup) :
    Suggests word names (closeNames word names) := by
  have hdescending := pairwise_ranked word h
  -- The names are cut behind the third: what stands before the cut ranks above what follows.
  rw [← List.take_append_drop 3 (ranked word names), List.pairwise_append] at hdescending
  obtain ⟨hfirst, -, hcut⟩ := hdescending
  rw [closeNames_eq]
  refine ⟨(nodup_ranked word h).sublist (List.take_sublist 3 _), List.length_take_le 3 _,
    fun name hname => mem_ranked.1 (List.mem_of_mem_take hname), hfirst, ?_, ?_⟩
  · intro name hname hnot listed hlisted
    by_cases hcutoff : 3 / 5 ≤ ratio word name
    · exact hcut listed hlisted name (mem_drop_ranked hname hcutoff hnot)
    · obtain ⟨_, hreached⟩ := mem_ranked.1 (List.mem_of_mem_take hlisted)
      exact rank_lt_of_ratio_lt ((not_le.1 hcutoff).trans_le hreached)
  · intro name hname hnot hcutoff
    have hrest := List.length_pos_of_mem (mem_drop_ranked hname hcutoff hnot)
    rw [List.length_drop] at hrest
    rw [List.length_take]
    omega

namespace Suggests

variable {word : String} {names others close close' : List String}

theorem congr (h : Suggests word names close) (hnames : ∀ name, name ∈ names ↔ name ∈ others) :
    Suggests word others close := by
  obtain ⟨hnodup, hlength, hdeclared, hdescending, homitted, hfull⟩ := h
  simp only [hnames] at hdeclared homitted hfull
  exact ⟨hnodup, hlength, hdeclared, hdescending, homitted, hfull⟩

theorem subset (h : Suggests word names close) (h' : Suggests word names close') :
    close ⊆ close' := by
  intro a ha
  by_contra hnot
  obtain ⟨hname, hcutoff⟩ := h.declared a ha
  -- A name of the second list that is not in the first would rank above `a`, and `a` above it.
  have hback : close' ⊆ close := by
    intro b hb
    by_contra hnot'
    exact lt_asymm (h'.omitted a hname hnot b hb) (h.omitted b (h'.declared b hb).1 hnot' a ha)
  have hlength : close.length ≤ close'.length := by
    rw [h'.full a hname hnot hcutoff]
    exact h.length_le
  have hperm : close'.Perm close :=
    (List.subperm_of_subset h'.nodup hback).perm_of_length_le hlength
  exact hnot (hperm.mem_iff.2 ha)

/-- There is only one such list. -/
theorem unique (h : Suggests word names close) (h' : Suggests word names close') :
    close = close' := by
  have hperm : close.Perm close' :=
    (List.perm_ext_iff_of_nodup h.nodup h'.nodup).2 fun _ =>
      ⟨fun ha => h.subset h' ha, fun ha => h'.subset h ha⟩
  exact hperm.eq_of_pairwise (fun _ _ _ _ hab hba => absurd hab (lt_asymm hba)) h.descending
    h'.descending

theorem eq_nil_iff (h : Suggests word names close) :
    close = [] ↔ ∀ name ∈ names, ratio word name < 3 / 5 := by
  constructor
  · rintro rfl name hname
    refine not_le.1 fun hcutoff => ?_
    exact absurd (h.full name hname List.not_mem_nil hcutoff) (by decide)
  · intro hfar
    refine List.eq_nil_iff_forall_not_mem.2 fun name hname => ?_
    obtain ⟨hdeclared, hcutoff⟩ := h.declared name hname
    exact not_le.2 (hfar name hdeclared) hcutoff

end Suggests

/-! ## The names in a hint -/

/-- The second of the elements, the fourth, and so on. -/
def everySecond {α : Type} : List α → List α
  | _ :: a :: as => a :: everySecond as
  | _ => []

/-- The parts of a text that marks enclose, two around each. -/
def enclosed (mark : Char) (text : List Char) : List (List Char) :=
  everySecond (text.splitOn mark)

theorem enclosed_of_notMem {mark : Char} {text : List Char} (h : mark ∉ text) :
    enclosed mark text = [] := by
  rw [enclosed, List.splitOn_eq_singleton h, everySecond]
  simp

theorem enclosed_append {mark : Char} {lead part : List Char} (hlead : mark ∉ lead)
    (hpart : mark ∉ part) (rest : List Char) :
    enclosed mark (lead ++ mark :: (part ++ mark :: rest)) = part :: enclosed mark rest := by
  rw [enclosed, List.splitOn_append_cons_self_of_not_mem hlead,
    List.splitOn_append_cons_self_of_not_mem hpart]
  rfl

end Text

/-- The names that a hint puts between quotes. -/
def offeredIn (hint : String) : List String :=
  (Text.enclosed '\'' hint.toList).map String.ofList

theorem toList_quotedNames_singleton (name : String) :
    (quotedNames [name]).toList = '\'' :: (name.toList ++ ['\'']) := by
  have hquoted : quotedNames [name] = "'" ++ name ++ "'" := String.intercalate_singleton
  rw [hquoted, String.toList_append, String.toList_append]
  rfl

theorem toList_quotedNames_cons_cons (name next : String) (names : List String) :
    (quotedNames (name :: next :: names)).toList =
      '\'' :: (name.toList ++ '\'' :: ([',', ' '] ++ (quotedNames (next :: names)).toList)) := by
  have hquoted : quotedNames (name :: next :: names) =
      "'" ++ name ++ "'" ++ ", " ++ quotedNames (next :: names) :=
    String.intercalate_cons_cons
  rw [hquoted]
  simp only [String.toList_append, List.append_assoc]
  rfl

/-- The names between quotes are what the quotes enclose, whatever stands around. -/
theorem enclosed_quotedNames {names : List String} (hne : names ≠ [])
    (hnames : ∀ name ∈ names, '\'' ∉ name.toList) {lead tail : List Char} (hlead : '\'' ∉ lead)
    (htail : '\'' ∉ tail) :
    Text.enclosed '\'' (lead ++ ((quotedNames names).toList ++ tail)) =
      names.map String.toList := by
  -- What stands before the first name is free, as for later names it is the comma between them.
  induction names generalizing lead with
  | nil => exact absurd rfl hne
  | cons name names ih =>
    obtain ⟨hname, hrest⟩ := List.forall_mem_cons.1 hnames
    cases names with
    | nil =>
      rw [toList_quotedNames_singleton, List.cons_append, List.append_assoc, List.singleton_append,
        Text.enclosed_append hlead hname, Text.enclosed_of_notMem htail]
      rfl
    | cons next names =>
      rw [toList_quotedNames_cons_cons, List.cons_append, List.append_assoc, List.cons_append,
        List.append_assoc, Text.enclosed_append hlead hname,
        ih (List.cons_ne_nil next names) hrest (by decide)]
      rfl

theorem didYouMean?_eq_none {names : List String} : didYouMean? names = none ↔ names = [] := by
  cases names <;> simp [didYouMean?]

theorem didYouMean?_eq_some {names : List String} {hint : String}
    (h : didYouMean? names = some hint) :
    names ≠ [] ∧ hint = "did you mean " ++ quotedNames names ++ "?" := by
  cases names with
  | nil => cases h
  | cons name names =>
    cases h
    exact ⟨List.cons_ne_nil name names, rfl⟩

/-- A hint tells the names that it offers. -/
theorem offeredIn_didYouMean? {names : List String} {hint : String}
    (h : didYouMean? names = some hint) (hnames : ∀ name ∈ names, '\'' ∉ name.toList) :
    offeredIn hint = names := by
  obtain ⟨hne, rfl⟩ := didYouMean?_eq_some h
  have hlead : '\'' ∉ "did you mean ".toList := by decide
  have htail : '\'' ∉ "?".toList := by decide
  rw [offeredIn, String.toList_append, String.toList_append, List.append_assoc,
    enclosed_quotedNames hne hnames hlead htail, List.map_map]
  simp

/-! ## Tables with the same names -/

theorem SymbolTable.suggests_namesLike (t : SymbolTable) (word : String) :
    Text.Suggests word t.names (t.namesLike word) :=
  Text.suggests_closeNames word t.nodup_names

theorem SymbolTable.hint?_undefined (t : SymbolTable) (word : String) (place? : Option Location)
    (line? : Option String) :
    (t.undefined word place? line?).cause.hint? = didYouMean? (t.namesLike word) := by
  have hall : (t.namesLike word).take 3 = t.namesLike word :=
    List.take_of_length_le (t.suggests_namesLike word).length_le
  rw [undefined, Cause.hint?, hall]

theorem SymbolTable.addressOf_of_notMem {t : SymbolTable} {word : String} (h : word ∉ t.names)
    (place? : Option Location) (line? : Option String) :
    t.addressOf word place? line? = .error (t.undefined word place? line?) := by
  rw [addressOf, (t.find?_eq_none_iff word).2 h]

section

variable {t u : SymbolTable} (hnames : ∀ name, name ∈ t.names ↔ name ∈ u.names)
include hnames

theorem SymbolTable.namesLike_congr (word : String) : u.namesLike word = t.namesLike word :=
  (u.suggests_namesLike word).unique ((t.suggests_namesLike word).congr hnames)

theorem SymbolTable.undefined_congr (word : String) (place? : Option Location)
    (line? : Option String) : u.undefined word place? line? = t.undefined word place? line? := by
  rw [undefined, undefined, namesLike_congr hnames]

theorem SymbolTable.contains_congr (name : String) : u.contains name = t.contains name := by
  rw [Bool.eq_iff_iff, contains_eq_true, contains_eq_true, hnames]

namespace Program

theorem checkLabels_congr (p : Program) : p.checkLabels u = p.checkLabels t := by
  simp only [checkLabels, SymbolTable.contains_congr hnames, SymbolTable.undefined_congr hnames]

theorem resolve_error_congr (p : Program) (d : Diagnostic) :
    p.resolve u = .error d ↔ p.resolve t = .error d := by
  rw [← checkLabels_error_iff_resolve, ← checkLabels_error_iff_resolve, checkLabels_congr hnames]

/-- Without one of its labels a program fails to build before any address counts. -/
theorem build_congr_of_misses {p : Program} (hmisses : p.MissesLabel t) (s : Settings) :
    p.build s u = p.build s t := by
  cases hresolve : p.resolve t with
  | ok q => exact absurd hmisses (resolve_ok.1 hresolve).1
  | error d =>
    by_cases hsize : s.capacity < p.size
    · rw [build_of_lt hsize, build_of_lt hsize]
    · have hfits := Int.not_lt.1 hsize
      rw [build_of_le hfits, build_of_le hfits, hresolve,
        (resolve_error_congr hnames p d).2 hresolve]
      rfl

end Program

end

namespace SymbolTable

/-- What is suggested for a word depends on the names that are declared and not on their order, nor
on their addresses. It is a list of at most three declared names without repetitions, the best
first, and no declared name that is left out ranks above one of the list. So two tables with the
same names report a label that is declared in neither in the same way, by themselves and as part of
a program. The hint is absent exactly if no declared name reaches the cutoff, and never offers the
label itself: it is the list that it offers, and the list can be read off its text, unless declared
names have quotes in them. -/
theorem suggestions_ignore_order {t u : SymbolTable}
    (hnames : ∀ name, name ∈ t.names ↔ name ∈ u.names) (word : String) :
    let close := t.namesLike word
    u.namesLike word = close ∧ Text.Suggests word t.names close ∧
    (word ∉ t.names → word ∉ close ∧ ∀ place? line?,
      let d : Diagnostic := ⟨.undefinedLabel word close, place?, line?⟩
      t.addressOf word place? line? = .error d ∧ u.addressOf word place? line? = .error d ∧
      (d.cause.hint? = none ↔ ∀ name ∈ t.names, Text.ratio word name < 3 / 5) ∧
      ∀ hint, d.cause.hint? = some hint →
        hint = "did you mean " ++ quotedNames close ++ "?" ∧
        ((∀ name ∈ t.names, '\'' ∉ name.toList) → offeredIn hint = close)) ∧
    ∀ p : Program, p.checkLabels u = p.checkLabels t ∧
      (∀ d, p.resolve u = .error d ↔ p.resolve t = .error d) ∧
      ∀ s, p.MissesLabel t → p.build s u = p.build s t := by
  intro close
  have hsuggests : Text.Suggests word t.names close := t.suggests_namesLike word
  refine ⟨namesLike_congr hnames word, hsuggests, ?_, ?_⟩
  · intro hword
    refine ⟨fun hclose => hword (hsuggests.declared word hclose).1, ?_⟩
    intro place? line? d
    have hhint : d.cause.hint? = didYouMean? close := t.hint?_undefined word place? line?
    refine ⟨addressOf_of_notMem hword place? line?, ?_, ?_, ?_⟩
    · rw [addressOf_of_notMem (mt (hnames word).2 hword), undefined_congr hnames]
      rfl
    · rw [hhint, didYouMean?_eq_none, hsuggests.eq_nil_iff]
    · intro hint hsome
      rw [hhint] at hsome
      refine ⟨(didYouMean?_eq_some hsome).2, fun hquotes => offeredIn_didYouMean? hsome ?_⟩
      exact fun name hname => hquotes name (hsuggests.declared name hname).1
  · intro p
    exact ⟨p.checkLabels_congr hnames, p.resolve_error_congr hnames,
      fun s hmisses => Program.build_congr_of_misses hnames hmisses s⟩

/-- Four names that are equally like a word, declared in opposite orders and at other addresses; a
program that jumps to the word; and a word that is like none of the names. -/
theorem suggestions_ignore_order_ties :
    let t : SymbolTable := ⟨[⟨"loop4", 0, none⟩, ⟨"loop3", 1, none⟩, ⟨"loop2", 2, none⟩,
      ⟨"loop1", 3, none⟩], by decide⟩
    let u : SymbolTable := ⟨[⟨"loop1", 7, none⟩, ⟨"loop2", 0, none⟩, ⟨"loop3", 5, none⟩,
      ⟨"loop4", 9, none⟩], by decide⟩
    let p : Program := ⟨[⟨.jump ⟨.label "loop", "a", 1, 3⟩, 0, ⟨"a", 1, 1⟩, "j loop"⟩], []⟩
    (∀ name, name ∈ t.names ↔ name ∈ u.names) ∧ "loop" ∉ t.names ∧ "xyzzy" ∉ t.names ∧
      u.namesLike "loop" = ["loop4", "loop3", "loop2"] ∧
      (∃ d hint, t.addressOf "loop" none none = .error d ∧
        u.addressOf "loop" none none = .error d ∧ d.cause.hint? = some hint ∧
        hint = "did you mean 'loop4', 'loop3', 'loop2'?" ∧
        offeredIn hint = ["loop4", "loop3", "loop2"]) ∧
      (∃ d, u.addressOf "xyzzy" none none = .error d ∧ d.cause.hint? = none) ∧
      p.MissesLabel t ∧ p.build {} u = p.build {} t := by
  intro t u p
  have hnames : ∀ name, name ∈ t.names ↔ name ∈ u.names := by
    have hreverse : u.names = t.names.reverse := rfl
    intro name
    rw [hreverse, List.mem_reverse]
  have hclose : t.namesLike "loop" = ["loop4", "loop3", "loop2"] := by
    have hall : (t.names.filter fun name => 3 / 5 ≤ Text.ratio "loop" name) = t.names := by
      decide +kernel
    have hranked : t.names.Pairwise
        fun a b => decide (Text.rank "loop" b ≤ Text.rank "loop" a) = true := by
      decide +kernel
    rw [namesLike, Text.closeNames_eq, Text.ranked, hall, List.mergeSort_of_pairwise hranked]
    rfl
  have hfar : ∀ name ∈ t.names, Text.ratio "xyzzy" name < 3 / 5 := by decide +kernel
  have hmisses : p.MissesLabel t :=
    ⟨_, List.mem_singleton_self _, ⟨"loop", "a", 1, 3⟩, List.mem_singleton_self _, by decide⟩
  obtain ⟨hlike, _, hundefined, hprogram⟩ := suggestions_ignore_order hnames "loop"
  obtain ⟨_, _, hunlike, _⟩ := suggestions_ignore_order hnames "xyzzy"
  obtain ⟨_, hreport⟩ := hundefined (by decide)
  obtain ⟨ht, hu, _, hhint⟩ := hreport none none
  obtain ⟨_, hsilent⟩ := hunlike (by decide)
  obtain ⟨_, hu', habsent, _⟩ := hsilent none none
  obtain ⟨_, _, hbuild⟩ := hprogram p
  rw [hclose] at ht hu hhint
  obtain ⟨htext, hoffered⟩ := hhint _ rfl
  exact ⟨hnames, by decide, by decide, hlike.trans hclose,
    ⟨_, _, ht, hu, rfl, htext, hoffered (by decide)⟩, ⟨_, hu', habsent.2 hfar⟩, hmisses,
    hbuild {} hmisses⟩

end SymbolTable

end Risc16
