import Mathlib.Data.List.Nodup
import Risc16.Command.Run
import Risc16.Proofs.Outcome

/-!
# Writing files in a tree

A file that is written changes its own place in the tree and no other. It never takes the place of a
directory, so every path goes on leading where it led. When several files are written, a file is
there in the end unless a later one was written to the same place.

Results:
1. `GuardedTree.SameDirectories.locate_ok`: paths lead where they led as long as the directories
   stay.
2. `GuardedTree.differAt_of_write`: what one file changes.
3. `Command.writeFiles_cons`: the step of the writer, one more file.
4. `Command.leaves_of_writeAll`: the run, all files.
5. `Command.Leaves.read_iff`: if the files differ, all of them are there just in case no two paths
   lead to the same place.
-/

namespace Risc16

open Outcome

/-! ## One place -/

namespace FileTree

variable {t : FileTree} {place other : Place}

theorem lookup_filter {entries : List (Place × Node)} (h : other ≠ place) :
    (entries.filter fun entry => entry.1 ≠ place).lookup other = entries.lookup other := by
  induction entries with
  | nil => rfl
  | cons entry entries ih =>
    obtain ⟨place', node⟩ := entry
    by_cases hplace : place' = place
    · rw [List.filter_cons_of_neg (by simpa using hplace), ih, List.lookup_cons,
        beq_false_of_ne (hplace ▸ h)]
    · rw [List.filter_cons_of_pos (by simpa using hplace), List.lookup_cons, List.lookup_cons, ih]

theorem find?_insert (h : place ≠ []) (node : Node) (other : Place) :
    (t.insert place node).find? other = if other = place then some node else t.find? other := by
  split
  · next heq =>
    subst heq
    exact t.find?_insert_self h node
  · next hother =>
    have hlookup : (t.insert place node).entries.lookup other = t.entries.lookup other := by
      rw [insert, List.lookup_cons, beq_false_of_ne hother]
      exact lookup_filter hother
    rw [find?, find?, hlookup]

theorem ne_nil_of_not_directory (h : t.find? place ≠ some .directory) : place ≠ [] := by
  rintro rfl
  exact h rfl

end FileTree

/-! ## Paths -/

namespace GuardedTree

variable {g g' g'' : GuardedTree} {place other : Place} {path : Path} {paths paths' : List Path}
  {bytes : List UInt8}

/-- Two trees have the same rights and the same directories, and are seen from the same one. -/
structure SameDirectories (g g' : GuardedTree) : Prop where
  rights : g'.rights = g.rights
  current : g'.tree.current = g.tree.current
  find? : ∀ place, g'.tree.find? place = some .directory ↔ g.tree.find? place = some .directory

theorem SameDirectories.refl (g : GuardedTree) : g.SameDirectories g :=
  ⟨rfl, rfl, fun _ => Iff.rfl⟩

theorem SameDirectories.symm (h : g.SameDirectories g') : g'.SameDirectories g :=
  ⟨h.rights.symm, h.current.symm, fun place => (h.find? place).symm⟩

theorem SameDirectories.trans (h : g.SameDirectories g') (h' : g'.SameDirectories g'') :
    g.SameDirectories g'' :=
  ⟨h'.rights.trans h.rights, h'.current.trans h.current,
    fun place => (h'.find? place).trans (h.find? place)⟩

/-- The place that a name leads to from a directory. -/
def stepTo (place : Place) (name : String) : Except FileFault Place :=
  if name = "." then .ok place
  else if name = ".." then .ok place.dropLast
  else if name.utf8ByteSize > FileTree.maxNameBytes then .error .nameTooLong
  else .ok (place ++ [name])

theorem follow_cons_ok {name : String} {names : List String} :
    g.follow place (name :: names) = .ok other ↔
      g.tree.find? place = some .directory ∧ (g.rights place).search = true ∧
        ∃ next, stepTo place name = .ok next ∧ g.follow next names = .ok other := by
  rw [follow]
  cases hfind : g.tree.find? place with
  | none => simp
  | some node =>
    cases node with
    | file bytes => simp
    | directory =>
      cases hsearch : (g.rights place).search with
      | false => simp
      | true =>
        simp only [stepTo, true_and, Bool.not_true, Bool.false_eq_true, if_false]
        split
        · simp
        · split
          · simp
          · split <;> simp

/-- Names are followed through directories, so it does not matter what else there is. -/
theorem SameDirectories.follow (h : g.SameDirectories g') {names : List String}
    (hfollow : g.follow place names = .ok other) : g'.follow place names = .ok other := by
  induction names generalizing place with
  | nil => exact hfollow
  | cons name names ih =>
    obtain ⟨hdirectory, hsearch, next, hnext, hrest⟩ := follow_cons_ok.1 hfollow
    exact follow_cons_ok.2 ⟨(h.find? place).2 hdirectory, h.rights ▸ hsearch, next, hnext, ih hrest⟩

theorem SameDirectories.locate (h : g.SameDirectories g') (hlocate : g.locate path = .ok place) :
    g'.locate path = .ok place := by
  unfold GuardedTree.locate at hlocate ⊢
  split at hlocate
  · cases hlocate
  · next hlong =>
    rw [if_neg hlong, h.current]
    exact h.follow hlocate

theorem SameDirectories.locate_ok (h : g.SameDirectories g') :
    g'.locate path = .ok place ↔ g.locate path = .ok place :=
  ⟨h.symm.locate, h.locate⟩

/-- Two trees with the same directories differ at most where paths of a list lead. -/
structure DifferAt (g : GuardedTree) (paths : List Path) (g' : GuardedTree) : Prop where
  same : g.SameDirectories g'
  untouched : ∀ place, (∀ path ∈ paths, g.locate path ≠ .ok place) →
    g'.tree.find? place = g.tree.find? place

theorem DifferAt.refl (g : GuardedTree) (paths : List Path) : g.DifferAt paths g :=
  ⟨.refl g, fun _ _ => rfl⟩

theorem DifferAt.mono (h : g.DifferAt paths g') (hpaths : ∀ path ∈ paths, path ∈ paths') :
    g.DifferAt paths' g' :=
  ⟨h.same, fun place hplace => h.untouched place fun path hpath => hplace path (hpaths path hpath)⟩

theorem DifferAt.trans (h : g.DifferAt paths g') (h' : g'.DifferAt paths' g'') :
    g.DifferAt (paths ++ paths') g'' where
  same := h.same.trans h'.same
  untouched place hplace := by
    rw [h'.untouched place fun path hpath hlocate =>
        hplace path (List.mem_append_right _ hpath) (h.same.locate_ok.1 hlocate),
      h.untouched place fun path hpath => hplace path (List.mem_append_left _ hpath)]

/-- A change at one place, where there is no directory before and none after. -/
theorem differAt_of_find? (hrights : g'.rights = g.rights)
    (hcurrent : g'.tree.current = g.tree.current) (hlocate : g.locate path = .ok place)
    (hbefore : g.tree.find? place ≠ some .directory)
    (hafter : g'.tree.find? place ≠ some .directory)
    (hother : ∀ other, other ≠ place → g'.tree.find? other = g.tree.find? other) :
    g.DifferAt [path] g' := by
  refine ⟨⟨hrights, hcurrent, ?_⟩, ?_⟩
  · intro other
    by_cases hplace : other = place
    · subst hplace
      exact iff_of_false hafter hbefore
    · rw [hother other hplace]
  · intro other hleads
    refine hother other ?_
    rintro rfl
    exact hleads path List.mem_cons_self hlocate

/-! ## One file -/

theorem write_ok :
    g.write path bytes = .ok g' ↔
      ∃ place, g.locate path = .ok place ∧ g.tree.find? place ≠ some .directory ∧
        g.mayWrite place = true ∧ g' = { g with tree := g.tree.insert place (.file bytes) } := by
  unfold write
  cases hlocate : g.locate path with
  | error fault => simp
  | ok place =>
    simp only [Except.ok.injEq, exists_eq_left']
    split
    · next hdirectory => simp [hdirectory]
    · next hother =>
      split
      · next hmay => simp [hother, hmay, eq_comm]
      · next hmay => simp [hmay]

theorem differAt_of_write (h : g.write path bytes = .ok g') : g.DifferAt [path] g' := by
  obtain ⟨place, hlocate, hplace, _, rfl⟩ := write_ok.1 h
  have hfind := FileTree.find?_insert (t := g.tree) (FileTree.ne_nil_of_not_directory hplace)
    (.file bytes)
  refine differAt_of_find? rfl rfl hlocate hplace ?_ ?_
  · simp [hfind]
  · intro other hother
    rw [hfind, if_neg hother]

theorem find?_of_write (h : g.write path bytes = .ok g') (hlocate : g.locate path = .ok place) :
    g.tree.find? place ≠ some .directory ∧ g'.tree.find? place = some (.file bytes) := by
  obtain ⟨place', hlocate', hplace, _, rfl⟩ := write_ok.1 h
  cases hlocate.symm.trans hlocate'
  exact ⟨hplace, g.tree.find?_insert_self (FileTree.ne_nil_of_not_directory hplace) _⟩

theorem read_of_find? (hlocate : g.locate path = .ok place)
    (hread : (g.rights place).read = true) (hfind : g.tree.find? place = some (.file bytes)) :
    g.read path = .ok bytes := by
  simp only [read, hlocate, hfind, hread, Bool.not_true, Bool.false_eq_true, if_false]

end GuardedTree

namespace FileTree

variable {t t' : FileTree} {place : Place} {path : Path} {bytes : List UInt8}

/-- In a tree alone a file is written as with all rights. -/
theorem write_ok :
    t.write path bytes = .ok t' ↔ t.unguarded.write path bytes = .ok t'.unguarded := by
  rw [write, map_ok]
  constructor
  · rintro ⟨g, hg, rfl⟩
    rw [hg]
    obtain ⟨_, _, _, _, rfl⟩ := GuardedTree.write_ok.1 hg
    rfl
  · intro h
    exact ⟨_, h, rfl⟩

theorem read_of_find? (hlocate : t.locate path = .ok place)
    (hfind : t.find? place = some (.file bytes)) : t.read path = .ok bytes :=
  GuardedTree.read_of_find? (g := t.unguarded) hlocate rfl hfind

end FileTree

/-! ## Several files -/

namespace Command

theorem run_bind_of_run {σ α β : Type} {t t' : σ} {x : StateM σ α} {f : α → StateM σ β} {a : α}
    (h : x.run t = (a, t')) : (x >>= f).run t = (f a).run t' := by
  rw [StateT.run_bind, h]
  rfl

section Runs

variable {σ : Type} [Files σ] {t t' t₁ : σ} {files before : List OutputFile} {file : OutputFile}
  {log : List LogLine} {written : List Path} {fault : FileFault}

/-- The files after some are written one after another, or the first fault. -/
def writeAll (t : σ) : List OutputFile → Except FileFault σ
  | [] => .ok t
  | file :: rest => do
    let t ← Files.write t file.path file.bytes
    writeAll t rest

/-- What is left when paths are removed one after another, up to the first that cannot be. -/
def removeAll (t : σ) : List Path → Except Failure Unit × σ
  | [] => (.ok (), t)
  | path :: rest =>
    match Files.remove t path with
    | .ok t => removeAll t rest
    | .error fault => (.error (.file path fault), t)

/-- What is reported once files are removed because of a failure. -/
def undoing (failure : Failure) : Except Failure Unit → Failure
  | .ok () => failure
  | .error other => other

theorem removeFiles_run (paths : List Path) (t : σ) :
    (removeFiles paths : StateM σ _).run t = removeAll t paths := by
  induction paths generalizing t with
  | nil => rfl
  | cons path paths ih =>
    have hremove : (FileStore.remove path : StateM σ _).run t =
        match Files.remove t path with
        | .ok t' => (.ok (), t')
        | .error fault => (.error fault, t) := rfl
    rw [removeFiles, removeAll]
    cases h : Files.remove t path with
    | ok t' =>
      rw [h] at hremove
      rw [run_bind_of_run hremove]
      exact ih t'
    | error fault =>
      rw [h] at hremove
      rw [run_bind_of_run hremove]
      rfl

/-- One more file is written, or those that were written before are removed. -/
theorem writeFiles_cons (t : σ) :
    (writeFiles written log (file :: files) : StateM σ _).run t =
      match Files.write t file.path file.bytes with
      | .ok t' =>
        (writeFiles (written ++ [file.path]) (log ++ [⟨.debug, file.note⟩]) files :
          StateM σ _).run t'
      | .error fault =>
        ((log, .error (.ofFailure (undoing (.file file.path fault) (removeAll t written).1))),
          (removeAll t written).2) := by
  have hwrite : (FileStore.write file.path file.bytes : StateM σ _).run t =
      match Files.write t file.path file.bytes with
      | .ok t' => (.ok (), t')
      | .error fault => (.error fault, t) := rfl
  rw [writeFiles]
  cases h : Files.write t file.path file.bytes with
  | ok t' =>
    rw [h] at hwrite
    rw [run_bind_of_run hwrite]
  | error fault =>
    rw [h] at hwrite
    rw [run_bind_of_run hwrite]
    dsimp only
    rw [run_bind_of_run (removeFiles_run written t)]
    cases (removeAll t written).1 <;> rfl

theorem writeAll_cons :
    writeAll t (file :: files) = .ok t' ↔
      ∃ t₁, Files.write t file.path file.bytes = .ok t₁ ∧ writeAll t₁ files = .ok t' :=
  bind_ok

/-- The fault is the one of the first file that cannot be written. -/
theorem writeAll_error :
    writeAll t files = .error fault ↔
      ∃ before file after t₁, files = before ++ file :: after ∧ writeAll t before = .ok t₁ ∧
        Files.write t₁ file.path file.bytes = .error fault := by
  induction files generalizing t with
  | nil => simp [writeAll]
  | cons first files ih =>
    rw [writeAll, bind_error]
    constructor
    · rintro (hfirst | ⟨t₁, hfirst, hrest⟩)
      · exact ⟨[], first, files, t, rfl, rfl, hfirst⟩
      · obtain ⟨before, file, after, t₂, rfl, hbefore, hfile⟩ := ih.1 hrest
        exact ⟨first :: before, file, after, t₂, rfl, writeAll_cons.2 ⟨t₁, hfirst, hbefore⟩, hfile⟩
    · rintro ⟨before, file, after, t₂, hsplit, hbefore, hfile⟩
      cases before with
      | nil =>
        cases hsplit
        cases hbefore
        exact .inl hfile
      | cons first before =>
        cases hsplit
        obtain ⟨t₁, hfirst, hbefore⟩ := writeAll_cons.1 hbefore
        exact .inr ⟨t₁, hfirst, ih.2 ⟨before, file, after, t₂, rfl, hbefore, hfile⟩⟩

/-- The writer goes on after the files that can be written. -/
theorem writeFiles_append (written : List Path) (log : List LogLine) (files : List OutputFile)
    (h : writeAll t before = .ok t₁) :
    (writeFiles written log (before ++ files) : StateM σ _).run t =
      (writeFiles (written ++ before.map OutputFile.path)
        (log ++ before.map fun file => ⟨.debug, file.note⟩) files : StateM σ _).run t₁ := by
  induction before generalizing t written log with
  | nil =>
    cases h
    rw [List.map_nil, List.map_nil, List.append_nil, List.append_nil, List.nil_append]
  | cons file before ih =>
    obtain ⟨t₂, hwrite, hrest⟩ := writeAll_cons.1 h
    rw [List.cons_append, writeFiles_cons, hwrite]
    dsimp only
    rw [ih _ _ hrest, List.map_cons, List.map_cons, List.append_assoc, List.append_assoc,
      List.singleton_append, List.singleton_append]

theorem writeFiles_of_writeAll (log : List LogLine) (h : writeAll t files = .ok t') :
    ∃ log', (writeFiles [] log files : StateM σ _).run t = ((log', .ok ()), t') := by
  have happend := writeFiles_append [] log [] h
  rw [List.append_nil] at happend
  rw [happend]
  exact ⟨_, rfl⟩

/-- At a file that cannot be written, the ones before it are removed. -/
theorem writeFiles_of_fault (log : List LogLine) (after : List OutputFile)
    (h : writeAll t before = .ok t₁)
    (hfault : Files.write t₁ file.path file.bytes = .error fault) :
    ∃ log', (writeFiles [] log (before ++ file :: after) : StateM σ _).run t =
      ((log', .error (.ofFailure (undoing (.file file.path fault)
          (removeAll t₁ (before.map OutputFile.path)).1))),
        (removeAll t₁ (before.map OutputFile.path)).2) := by
  rw [writeFiles_append [] log _ h, writeFiles_cons, hfault, List.nil_append]
  exact ⟨_, rfl⟩

end Runs

/-! ## What is left of several files -/

variable {g g' g₁ : GuardedTree} {t t' : FileTree} {files : List OutputFile} {file : OutputFile}

/-- What files leave that were all written in a tree. Nothing changes but where their paths lead.

* `located`: their paths lead somewhere, but not to directories.
* `filled`: there is a file where the paths lead.
* `kept`: it is the one with the path, if no later one has the same place. -/
structure Leaves (g : GuardedTree) (files : List OutputFile) (g' : GuardedTree) : Prop
    extends g.DifferAt (files.map OutputFile.path) g' where
  located : ∀ file ∈ files, ∃ place, g.locate file.path = .ok place ∧
    g.tree.find? place ≠ some .directory
  filled : ∀ file ∈ files, ∀ place, g.locate file.path = .ok place →
    ∃ bytes, g'.tree.find? place = some (.file bytes)
  kept : ∀ before file after, files = before ++ file :: after →
    (∀ later ∈ after, g.locate later.path ≠ g.locate file.path) →
    ∀ place, g.locate file.path = .ok place → g'.tree.find? place = some (.file file.bytes)

/-- A file stays that is written before others, if no path of them leads to its place. -/
theorem Leaves.find?_of_write {place : Place} (h : Leaves g₁ files g')
    (hwrite : g.write file.path file.bytes = .ok g₁) (hlocate : g.locate file.path = .ok place)
    (hlater : ∀ later ∈ files, g.locate later.path ≠ .ok place) :
    g'.tree.find? place = some (.file file.bytes) := by
  have hsame := (GuardedTree.differAt_of_write hwrite).same
  rw [h.untouched place, (GuardedTree.find?_of_write hwrite hlocate).2]
  intro path hpath hleads
  obtain ⟨later, hmem, rfl⟩ := List.mem_map.1 hpath
  exact hlater later hmem (hsame.locate_ok.1 hleads)

/-- What one more file leaves, written before the others. -/
theorem Leaves.cons (hwrite : g.write file.path file.bytes = .ok g₁) (h : Leaves g₁ files g') :
    Leaves g (file :: files) g' := by
  have hdiffer := GuardedTree.differAt_of_write hwrite
  have hsame := hdiffer.same
  obtain ⟨place, hlocate, hplace, _⟩ := GuardedTree.write_ok.1 hwrite
  refine ⟨hdiffer.trans h.toDifferAt, ?_, ?_, ?_⟩
  · intro other hother
    rcases List.mem_cons.1 hother with rfl | hother
    · exact ⟨place, hlocate, hplace⟩
    · obtain ⟨place', hlocate', hplace'⟩ := h.located other hother
      exact ⟨place', hsame.locate_ok.1 hlocate', mt (hsame.find? place').2 hplace'⟩
  · intro other hother place' hlocate'
    by_cases hlater : ∃ later ∈ files, g.locate later.path = .ok place'
    · obtain ⟨later, hmem, hleads⟩ := hlater
      exact h.filled later hmem place' (hsame.locate hleads)
    · rcases List.mem_cons.1 hother with rfl | hmem
      · exact ⟨_, h.find?_of_write hwrite hlocate' fun later hmem hleads =>
          hlater ⟨later, hmem, hleads⟩⟩
      · exact absurd ⟨other, hmem, hlocate'⟩ hlater
  · intro before file' after hsplit hlater place' hlocate'
    cases before with
    | nil =>
      cases hsplit
      exact h.find?_of_write hwrite hlocate' fun later hmem => hlocate' ▸ hlater later hmem
    | cons first before =>
      cases hsplit
      have hlocate₁ := hsame.locate hlocate'
      refine h.kept before file' after rfl ?_ place' hlocate₁
      intro later hmem hleads
      rw [hlocate₁] at hleads
      exact hlater later hmem ((hsame.locate_ok.1 hleads).trans hlocate'.symm)

/-- If all files are written, they leave what files leave. -/
theorem leaves_of_writeAll (h : writeAll g files = .ok g') : Leaves g files g' := by
  induction files generalizing g with
  | nil =>
    cases h
    exact ⟨.refl _ _, nofun, nofun, fun before _ _ hsplit => by simp at hsplit⟩
  | cons file files ih =>
    obtain ⟨g₁, hwrite, hrest⟩ := writeAll_cons.1 h
    exact (ih hrest).cons hwrite

theorem writeAll_unguarded (h : writeAll t files = .ok t') :
    writeAll t.unguarded files = .ok t'.unguarded := by
  induction files generalizing t with
  | nil =>
    cases h
    rfl
  | cons file files ih =>
    obtain ⟨t₁, hwrite, hrest⟩ := writeAll_cons.1 h
    exact writeAll_cons.2 ⟨_, FileTree.write_ok.1 hwrite, ih hrest⟩

theorem Leaves.read_of_kept (h : Leaves t.unguarded files t'.unguarded)
    {before after : List OutputFile} (hsplit : files = before ++ file :: after)
    (hlater : ∀ later ∈ after, t.locate later.path ≠ t.locate file.path) :
    t'.read file.path = .ok file.bytes := by
  obtain ⟨place, hlocate, _⟩ := h.located file (by simp [hsplit])
  exact FileTree.read_of_find? (h.same.locate hlocate) (h.kept _ _ _ hsplit hlater place hlocate)

/-- If the files differ, all of them are there just in case their places differ. -/
theorem Leaves.read_iff (h : Leaves t.unguarded files t'.unguarded)
    (hbytes : (files.map OutputFile.bytes).Nodup) :
    (∀ file ∈ files, t'.read file.path = .ok file.bytes) ↔
      (files.map fun file => t.locate file.path).Nodup := by
  constructor
  · intro hread
    refine hbytes.of_map.map_on ?_
    intro file hfile file' hfile' hplace
    obtain ⟨place, hlocate, _⟩ := h.located file hfile
    have hlocate' : t.locate file'.path = .ok place := hplace ▸ hlocate
    -- The tree has one file for both paths.
    obtain ⟨bytes, hfind⟩ := h.filled file hfile place hlocate
    have hone := hread file hfile
    have hother := hread file' hfile'
    rw [FileTree.read_of_find? (h.same.locate hlocate) hfind] at hone
    rw [FileTree.read_of_find? (h.same.locate hlocate') hfind] at hother
    exact List.inj_on_of_nodup_map hbytes hfile hfile' (Except.ok.inj (hone.symm.trans hother))
  · intro hplaces file hfile
    obtain ⟨before, after, rfl⟩ := List.append_of_mem hfile
    refine h.read_of_kept rfl ?_
    rw [List.map_append, List.map_cons] at hplaces
    have hnot := (List.nodup_cons.1 (List.nodup_append.1 hplaces).2.1).1
    intro later hlater hplace
    exact hnot (hplace ▸ List.mem_map_of_mem hlater)

end Command

end Risc16
