import Mathlib.Data.String.Basic
import Risc16.Proofs.FileWriting
import Risc16.Proofs.Reprint

/-!
# Where paths lead

A path can be taken in three ways: as the text that was given, in its normal form, and as the place
that its parts name without a look at the tree. A tree has no links, so the three agree once the
path leads somewhere.

Results:
1. `Path.render_ofText`: a normal form is made of characters of the text, so it is no longer and
   holds nothing new.
2. `GuardedTree.resolve_of_locate`: a path that leads somewhere leads to the place that its parts
   name.
3. `GuardedTree.locate_of_kind?`: if a text leads somewhere, its normal form leads to the same
   place.
-/

namespace Risc16

/-! ## Normal forms -/

theorem Text.intercalate_filter_sublist (sep : List Char) (keep : List Char → Bool)
    (parts : List (List Char)) :
    (sep.intercalate (parts.filter keep)).Sublist (sep.intercalate parts) := by
  induction parts with
  | nil => exact .refl _
  | cons part parts ih =>
    by_cases hparts : parts = []
    · subst hparts
      by_cases hkeep : keep part = true
      · rw [List.filter_cons_of_pos hkeep]
        exact .refl _
      · rw [List.filter_cons_of_neg hkeep]
        exact List.nil_sublist _
    · rw [List.intercalate_cons_of_ne_nil hparts]
      by_cases hkeep : keep part = true
      · rw [List.filter_cons_of_pos hkeep]
        by_cases hkept : parts.filter keep = []
        · rw [hkept, List.intercalate_singleton, List.append_assoc]
          exact List.sublist_append_left part _
        · rw [List.intercalate_cons_of_ne_nil hkept]
          exact ih.append_left _
      · rw [List.filter_cons_of_neg hkeep]
        exact ih.trans (List.sublist_append_right _ _)

/-- Slashes in front of a text only add empty parts. -/
theorem Text.filter_splitOn_dropWhile {keep : List Char → Bool} (hempty : keep [] = false)
    (mark : Char) (text : List Char) :
    ((text.dropWhile (· == mark)).splitOn mark).filter keep = (text.splitOn mark).filter keep := by
  induction text with
  | nil => rfl
  | cons c text ih =>
    by_cases hc : (c == mark) = true
    · rw [List.dropWhile_cons, if_pos hc, ih, List.splitOn_cons_eq_if_modifyHead, if_pos hc,
        List.filter_cons_of_neg (by simp [hempty])]
    · rw [List.dropWhile_cons, if_neg hc]

theorem PathStart.render_ofText_sublist (text : List Char) :
    (ofText text).render.toList.Sublist (text.takeWhile (· == '/')) := by
  have hslashes : text.takeWhile (· == '/') =
      List.replicate (text.takeWhile (· == '/')).length '/' :=
    List.eq_replicate_of_mem fun c hc =>
      beq_iff_eq.1 (List.all_eq_true.1 List.all_takeWhile c hc)
  unfold ofText
  split
  · exact List.nil_sublist _
  · next htwo =>
    rw [hslashes, htwo]
    exact .refl _
  · next hzero _ =>
    obtain ⟨n, hn⟩ := Nat.exists_eq_succ_of_ne_zero hzero
    rw [hslashes, hn]
    exact (List.nil_sublist _).cons_cons '/'

namespace Path

theorem toList_intercalate_parts_sublist (text : String) :
    ("/".intercalate (ofText text).parts).toList.Sublist
      (text.toList.dropWhile (· == '/')) := by
  let keep : List Char → Bool := fun part => String.ofList part ≠ "" ∧ String.ofList part ≠ "."
  have hparts : (ofText text).parts.map String.toList =
      (text.toList.splitOn '/').filter keep := by
    rw [ofText, components, List.filter_map, List.map_map]
    simp only [Function.comp_def, String.toList_ofList, List.map_id']
    rfl
  have hjoined := Text.intercalate_filter_sublist ['/'] keep
    ((text.toList.dropWhile (· == '/')).splitOn '/')
  rw [Text.filter_splitOn_dropWhile (by decide), ← hparts, List.intercalate_splitOn] at hjoined
  rw [String.toList_intercalate]
  exact hjoined

/-- A normal form is a dot, or what is left of the text when some characters are left out. -/
theorem render_ofText (text : String) :
    (ofText text).render = "." ∨ (ofText text).render.toList.Sublist text.toList := by
  have hsublist : ((ofText text).start.render ++ "/".intercalate (ofText text).parts).toList.Sublist
      text.toList := by
    have hparted := (PathStart.render_ofText_sublist text.toList).append
      (toList_intercalate_parts_sublist text)
    rwa [List.takeWhile_append_dropWhile, ← String.toList_append] at hparted
  unfold render
  dsimp only
  split
  · exact .inl rfl
  · exact .inr hsublist

theorem utf8ByteSize_render_ofText {text : String} {n : Nat} (hn : 1 ≤ n)
    (h : text.utf8ByteSize ≤ n) : (ofText text).render.utf8ByteSize ≤ n := by
  rcases render_ofText text with hdot | hsublist
  · rw [hdot]
    exact hn
  · have hlength := String.utf8Len_le_of_sublist hsublist
    rw [← String.utf8ByteSize_ofList, ← String.utf8ByteSize_ofList, String.ofList_toList,
      String.ofList_toList] at hlength
    exact Nat.le_trans hlength h

theorem hasZero_render_ofText {text : String} (h : Text.hasZero text = false) :
    Text.hasZero (ofText text).render = false := by
  rcases render_ofText text with hdot | hsublist
  · rw [hdot]
    rfl
  · rw [Text.hasZero, List.contains_eq_mem, decide_eq_false_iff_not] at h ⊢
    exact fun hzero => h (hsublist.subset hzero)

/-- No part of the path stays where it is. -/
def Normal (p : Path) : Prop :=
  "." ∉ p.parts

theorem normal_ofText (text : String) : (ofText text).Normal := by
  intro hdot
  simp [ofText] at hdot

theorem Normal.image {p q : Path} (h : p.Normal) (himage : p.image? = some q) : q.Normal := by
  obtain ⟨name, _, rfl⟩ := Option.map_eq_some_iff.1 himage
  intro hdot
  rcases List.mem_append.1 hdot with hdot | hdot
  · exact h ((List.dropLast_sublist _).subset hdot)
  · have hlength := congrArg (fun s => s.toList.length) (List.mem_singleton.1 hdot)
    simp at hlength

end Path

/-! ## Places -/

theorem FileTree.filter_rawNames (text : String) :
    (rawNames text).filter (· ≠ ".") = (Path.ofText text).parts := by
  have hne : Path.components text ≠ [] := by
    rw [Path.components, ne_eq, List.map_eq_nil_iff]
    exact List.splitOn_ne_nil '/' text.toList
  rw [rawNames, Path.ofText]
  obtain ⟨init, last, hcomponents⟩ := (List.eq_nil_or_concat _).resolve_left hne
  rw [hcomponents]
  by_cases hempty : last = ""
  · simp [hempty, Bool.and_comm]
  · by_cases hdot : last = "." <;> simp [hempty, hdot, Bool.and_comm]

namespace GuardedTree

variable {g : GuardedTree} {place other : Place} {path : Path} {text : String}

/-- Names are followed to the place that they name. -/
theorem foldl_of_follow {names : List String} (hnames : "." ∉ names)
    (h : g.follow place names = .ok other) :
    names.foldl (fun place part => if part = ".." then place.dropLast else place ++ [part]) place =
      other := by
  induction names generalizing place with
  | nil => exact Except.ok.inj h
  | cons name names ih =>
    rw [List.mem_cons, not_or] at hnames
    obtain ⟨_, _, next, hnext, hrest⟩ := follow_cons_ok.1 h
    have hstep : (if name = ".." then place.dropLast else place ++ [name]) = next := by
      unfold stepTo at hnext
      rw [if_neg (Ne.symm hnames.1)] at hnext
      split
      · next hup =>
        rw [if_pos hup] at hnext
        exact Except.ok.inj hnext
      · next hdown =>
        rw [if_neg hdown] at hnext
        split at hnext
        · cases hnext
        · exact Except.ok.inj hnext
    rw [List.foldl_cons, hstep]
    exact ih hnames.2 hrest

/-- A path leads to the place that its parts name, if it leads anywhere. -/
theorem resolve_of_locate (hnormal : path.Normal) (h : g.locate path = .ok place) :
    path.resolve g.tree.current = place := by
  unfold locate at h
  split at h
  · cases h
  · exact foldl_of_follow hnormal h

/-- Parts that stay where they are can be left out. -/
theorem follow_filter {names : List String} (h : g.follow place names = .ok other) :
    g.follow place (names.filter (· ≠ ".")) = .ok other := by
  induction names generalizing place with
  | nil => exact h
  | cons name names ih =>
    obtain ⟨hdirectory, hsearch, next, hnext, hrest⟩ := follow_cons_ok.1 h
    by_cases hdot : name = "."
    · rw [stepTo, if_pos hdot] at hnext
      rw [List.filter_cons_of_neg (by simpa using hdot), Except.ok.inj hnext]
      exact ih hrest
    · rw [List.filter_cons_of_pos (by simpa using hdot)]
      exact follow_cons_ok.2 ⟨hdirectory, hsearch, next, hnext, ih hrest⟩

/-- A text that leads somewhere and its normal form lead to the same place. -/
theorem locate_of_kind? {kind : EntryKind} (h : g.kind? text = some kind) :
    ∃ place node, g.locate (Path.ofText text) = .ok place ∧ g.tree.find? place = some node ∧
      g.kindAt place node = kind := by
  unfold kind? at h
  split at h
  · cases h
  · next hlimits =>
    rw [not_or, Nat.not_lt] at hlimits
    have hshort := Path.utf8ByteSize_render_ofText (by decide) hlimits.2
    dsimp only at h
    cases hfollow :
        g.follow (if PathStart.ofText text.toList = .current then g.tree.current else [])
          (FileTree.rawNames text) with
    | error fault =>
      rw [hfollow] at h
      cases h
    | ok place =>
      rw [hfollow] at h
      obtain ⟨node, hfind, hkind⟩ := Option.map_eq_some_iff.1 h
      refine ⟨place, node, ?_, hfind, hkind⟩
      rw [locate, if_neg (Nat.not_lt.2 hshort), ← FileTree.filter_rawNames]
      exact follow_filter hfollow

theorem file_of_kind? (h : g.kind? text = some .file) :
    ∃ place bytes, g.locate (Path.ofText text) = .ok place ∧ (g.rights place).read = true ∧
      g.tree.find? place = some (.file bytes) := by
  obtain ⟨place, node, hlocate, hfind, hkind⟩ := locate_of_kind? h
  cases node with
  | directory => cases hkind
  | file bytes =>
    refine ⟨place, bytes, hlocate, ?_, hfind⟩
    by_contra hclosed
    rw [kindAt, if_neg hclosed] at hkind
    cases hkind

end GuardedTree

end Risc16
