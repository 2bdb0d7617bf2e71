import Risc16.Proofs.JobRuns
import Risc16.Proofs.Requests

/-!
# The files that a command spares

A command changes files only where its output paths lead, and none of them leads to the source. It
writes nothing before the source is assembled. If one of its files cannot be written, it removes the
ones before it and nothing else. A file can be written where it cannot be removed: one that is there
already, in a directory whose entries may not be changed. Such a file stays as it was written, and
so do the ones that are to be removed after it.

Results:
1. `GuardedTree.differAt_removeAll`: removing changes nothing but where the paths lead.
2. `GuardedTree.removeAll_of_removable`, `GuardedTree.find?_removeAll`: what goes and what stays.
3. `Command.hasEntry_undone`: files that are written and removed again are all gone just in case
   their directories may be changed.
4. `Command.Job.differAt_of_run`: a job changes nothing but where its output paths lead.
5. `Command.run_spares_files`: all of that for a command.
-/

namespace Risc16

open Outcome

/-! ## One file -/

theorem FileTree.find?_erase {t : FileTree} {place : Place} (h : place ≠ []) (other : Place) :
    (t.erase place).find? other = if other = place then none else t.find? other := by
  split
  · next heq =>
    subst heq
    rw [find?, if_neg h, erase, List.lookup_eq_none_iff]
    intro entry hentry
    have hkept : entry.1 ≠ other := of_decide_eq_true (List.mem_filter.1 hentry).2
    exact bne_iff_ne.2 hkept.symm
  · next hother =>
    have hlookup : (t.erase place).entries.lookup other = t.entries.lookup other :=
      lookup_filter hother
    rw [find?, find?, hlookup]

namespace GuardedTree

variable {g g' : GuardedTree} {place : Place} {path : Path} {paths : List Path}

/-- Whether there is anything where a path leads. -/
def HasEntry (g : GuardedTree) (path : Path) : Prop :=
  ∃ place node, g.locate path = .ok place ∧ g.tree.find? place = some node

/-- The entries of the directory may be changed in which a path ends. -/
def MayRemove (g : GuardedTree) (path : Path) : Prop :=
  ∀ place, g.locate path = .ok place → g.mayChange place = true

theorem SameDirectories.mayChange_eq (h : g.SameDirectories g') (place : Place) :
    g'.mayChange place = g.mayChange place := by
  rw [mayChange, mayChange, h.rights]

theorem DifferAt.read_eq (h : g.DifferAt paths g') (hlocate : g.locate path = .ok place)
    (hplace : ∀ other ∈ paths, g.locate other ≠ .ok place) : g'.read path = g.read path := by
  rw [read, read, h.same.locate hlocate, hlocate]
  dsimp only
  rw [h.untouched place hplace, h.same.rights]

/-- Nothing is removed where there is nothing, and else a file. Its directory may be changed. -/
theorem remove_cases (h : g.remove path = .ok g') :
    g' = g ∨ ∃ place bytes, g.locate path = .ok place ∧
      g.tree.find? place = some (.file bytes) ∧ g.mayChange place = true ∧
      g' = { g with tree := g.tree.erase place } := by
  unfold remove at h
  split at h
  · exact .inl (Except.ok.inj h).symm
  · cases h
  · next place hlocate =>
    split at h
    · exact .inl (Except.ok.inj h).symm
    · next node hfind =>
      cases hmay : g.mayChange place with
      | false =>
        rw [hmay] at h
        cases h
      | true =>
        rw [hmay] at h
        cases node with
        | directory => cases h
        | file bytes => exact .inr ⟨place, bytes, hlocate, hfind, hmay, (Except.ok.inj h).symm⟩

theorem ne_nil_of_file {bytes : List UInt8} (h : g.tree.find? place = some (.file bytes)) :
    place ≠ [] :=
  FileTree.ne_nil_of_not_directory (t := g.tree) (by simp [h])

theorem differAt_of_remove (h : g.remove path = .ok g') : g.DifferAt [path] g' := by
  rcases remove_cases h with rfl | ⟨place, bytes, hlocate, hfile, _, rfl⟩
  · exact .refl g' _
  · have hfind := FileTree.find?_erase (t := g.tree) (ne_nil_of_file hfile)
    refine differAt_of_find? rfl rfl hlocate (by simp [hfile]) ?_ ?_
    · simp [hfind]
    · intro other hother
      rw [hfind, if_neg hother]

theorem find?_of_remove (h : g.remove path = .ok g') (hmay : g.mayChange place = false) :
    g'.tree.find? place = g.tree.find? place := by
  rcases remove_cases h with rfl | ⟨other, bytes, _, hfile, hother, rfl⟩
  · rfl
  · rw [FileTree.find?_erase (ne_nil_of_file hfile), if_neg]
    rintro rfl
    cases hmay.symm.trans hother

/-- A path leads to a place that may be changed and is no directory. -/
def Removable (g : GuardedTree) (path : Path) : Prop :=
  ∃ place, g.locate path = .ok place ∧ g.tree.find? place ≠ some .directory ∧
    g.mayChange place = true

theorem SameDirectories.removable (h : g.SameDirectories g') (hpath : g.Removable path) :
    g'.Removable path := by
  obtain ⟨place, hlocate, hplace, hmay⟩ := hpath
  refine ⟨place, h.locate hlocate, mt (h.find? place).1 hplace, ?_⟩
  rwa [h.mayChange_eq]

theorem remove_of_mayChange (hlocate : g.locate path = .ok place)
    (hplace : g.tree.find? place ≠ some .directory) (hmay : g.mayChange place = true) :
    ∃ g', g.remove path = .ok g' ∧ g'.tree.find? place = none := by
  simp only [remove, hlocate, hmay]
  cases hfind : g.tree.find? place with
  | none => exact ⟨g, rfl, hfind⟩
  | some node =>
    cases node with
    | directory => exact absurd hfind hplace
    | file bytes =>
      refine ⟨_, rfl, ?_⟩
      rw [FileTree.find?_erase (ne_nil_of_file hfind), if_pos rfl]

end GuardedTree

/-! ## Several files -/

namespace GuardedTree

open Command

variable {g : GuardedTree} {place : Place} {paths : List Path}

theorem differAt_removeAll (g : GuardedTree) (paths : List Path) :
    g.DifferAt paths (removeAll g paths).2 := by
  induction paths generalizing g with
  | nil => exact .refl g _
  | cons path paths ih =>
    rw [removeAll]
    cases hremove : Files.remove g path with
    | ok g₁ => exact (differAt_of_remove hremove).trans (ih g₁)
    | error fault => exact .refl g _

/-- What is in a directory that may not be changed stays. -/
theorem find?_removeAll (hmay : g.mayChange place = false) (paths : List Path) :
    (removeAll g paths).2.tree.find? place = g.tree.find? place := by
  induction paths generalizing g with
  | nil => rfl
  | cons path paths ih =>
    rw [removeAll]
    cases hremove : Files.remove g path with
    | error fault => rfl
    | ok g₁ =>
      rw [← find?_of_remove hremove hmay]
      exact ih (by rwa [(differAt_of_remove hremove).same.mayChange_eq])

/-- Files of directories that may be changed all go. -/
theorem removeAll_of_removable (h : ∀ path ∈ paths, g.Removable path) :
    (removeAll g paths).1 = .ok () ∧ ∀ path ∈ paths, ∀ place, g.locate path = .ok place →
      (removeAll g paths).2.tree.find? place = none := by
  induction paths generalizing g with
  | nil => exact ⟨rfl, nofun⟩
  | cons path paths ih =>
    obtain ⟨place, hlocate, hplace, hmay⟩ := h path List.mem_cons_self
    obtain ⟨g₁, hremove, hnone⟩ := remove_of_mayChange hlocate hplace hmay
    have hsame := (differAt_of_remove hremove).same
    obtain ⟨hok, hgone⟩ := ih fun later hlater =>
      hsame.removable (h later (List.mem_cons_of_mem path hlater))
    have hstep : Files.remove g path = .ok g₁ := hremove
    rw [removeAll, hstep]
    refine ⟨hok, ?_⟩
    intro removed hremoved place' hlocate'
    -- A later path that leads to the same place finds nothing there, and removes nothing.
    by_cases hlater : ∃ later ∈ paths, g.locate later = .ok place'
    · obtain ⟨later, hmem, hleads⟩ := hlater
      exact hgone later hmem place' (hsame.locate hleads)
    · rcases List.mem_cons.1 hremoved with rfl | hmem
      · cases hlocate.symm.trans hlocate'
        rw [(differAt_removeAll g₁ paths).untouched place fun later hmem hleads =>
          hlater ⟨later, hmem, hsame.locate_ok.1 hleads⟩, hnone]
      · exact absurd ⟨removed, hmem, hlocate'⟩ hlater

end GuardedTree

namespace Command

variable {g g' g₁ : GuardedTree} {before after : List OutputFile} {file : OutputFile}
  {fault : FileFault}

/-- Files that were written can be removed again if their directories may be changed. -/
theorem removeAll_of_writeAll (h : writeAll g before = .ok g₁)
    (hmay : ∀ earlier ∈ before, g.MayRemove earlier.path) :
    (removeAll g₁ (before.map OutputFile.path)).1 = .ok () ∧
      ∀ earlier ∈ before, ∀ place, g.locate earlier.path = .ok place →
        (removeAll g₁ (before.map OutputFile.path)).2.tree.find? place = none := by
  have hleaves := leaves_of_writeAll h
  have hsame := hleaves.same
  have hremovable : ∀ path ∈ before.map OutputFile.path, g₁.Removable path := by
    intro path hpath
    obtain ⟨earlier, hearlier, rfl⟩ := List.mem_map.1 hpath
    obtain ⟨place, hlocate, hplace⟩ := hleaves.located earlier hearlier
    exact hsame.removable ⟨place, hlocate, hplace, hmay earlier hearlier place hlocate⟩
  obtain ⟨hok, hgone⟩ := GuardedTree.removeAll_of_removable hremovable
  refine ⟨hok, ?_⟩
  intro earlier hearlier place hlocate
  exact hgone _ (List.mem_map_of_mem hearlier) place (hsame.locate hlocate)

theorem differAt_undone (h : writeAll g before = .ok g₁) :
    g.DifferAt (before.map OutputFile.path) (removeAll g₁ (before.map OutputFile.path)).2 := by
  have hboth := (leaves_of_writeAll h).toDifferAt.trans
    (GuardedTree.differAt_removeAll g₁ (before.map OutputFile.path))
  exact hboth.mono fun path hpath => (List.mem_append.1 hpath).elim id id

theorem find?_undone {place : Place} (h : writeAll g before = .ok g₁)
    (hmay : g.mayChange place = false) :
    (removeAll g₁ (before.map OutputFile.path)).2.tree.find? place = g₁.tree.find? place := by
  refine GuardedTree.find?_removeAll ?_ _
  rwa [(leaves_of_writeAll h).same.mayChange_eq]

/-- Files that were written and are to be removed again are all gone just in case their directories
may be changed. -/
theorem hasEntry_undone (h : writeAll g before = .ok g₁) :
    (∀ earlier ∈ before,
        ¬ (removeAll g₁ (before.map OutputFile.path)).2.HasEntry earlier.path) ↔
      ∀ earlier ∈ before, g.MayRemove earlier.path := by
  have hsame := (differAt_undone h).same
  constructor
  · intro hgone earlier hearlier place hlocate
    by_contra hmay
    obtain ⟨bytes, hfile⟩ := (leaves_of_writeAll h).filled earlier hearlier place hlocate
    refine hgone earlier hearlier ⟨place, .file bytes, hsame.locate hlocate, ?_⟩
    rw [find?_undone h (Bool.eq_false_iff.2 hmay), hfile]
  · rintro hmay earlier hearlier ⟨place, node, hlocate, hfind⟩
    obtain ⟨_, hnone⟩ := removeAll_of_writeAll h hmay
    cases (hnone earlier hearlier place (hsame.locate_ok.1 hlocate)).symm.trans hfind

/-! ## Jobs -/

namespace Job

variable {job : Job} {e : Environment}

/-- A job changes nothing but where its output paths lead, and nothing at all if one of them leads
to its source. -/
theorem differAt_of_run {report : Report}
    (hrun : (job.run e : StateM GuardedTree Report).run g = (report, g')) :
    g.DifferAt job.outputPaths g' ∧ (job.Overwrites g.tree.current → g' = g) := by
  have hruns := runsTo_of_run hrun
  generalize report.exitCode = code at hruns
  cases hruns with
  | refused => exact ⟨.refl g _, fun _ => rfl⟩
  | failed => exact ⟨.refl g _, fun _ => rfl⟩
  | written hpaths hfiles hwritten =>
    refine ⟨?_, fun h => absurd h hpaths⟩
    rw [← map_path_filesFrom hfiles]
    exact (leaves_of_writeAll hwritten).toDifferAt
  | undone hpaths hfiles hbefore =>
    refine ⟨(differAt_undone hbefore).mono fun path hpath => ?_, fun h => absurd h hpaths⟩
    rw [← map_path_filesFrom hfiles, List.map_append]
    exact List.mem_append_left _ hpath

/-- The output paths of a job that is not refused lead elsewhere than its input. -/
theorem AskedBy.locate_ne {w : Words} {place : Place} (h : job.AskedBy w g)
    (hpaths : ¬ job.Overwrites g.tree.current) (hinput : g.locate job.input = .ok place) :
    ∀ path ∈ job.outputPaths, g.locate path ≠ .ok place := by
  intro path hpath hlocate
  refine hpaths ⟨path, hpath, ?_⟩
  rw [GuardedTree.resolve_of_locate (h.output_normal path hpath) hlocate,
    GuardedTree.resolve_of_locate h.input_normal hinput]

theorem AskedBy.read_input_of_run {w : Words} {report : Report} (h : job.AskedBy w g)
    (hrun : (job.run e : StateM GuardedTree Report).run g = (report, g')) :
    ∃ bytes, g.read job.input = .ok bytes ∧ g'.read job.input = .ok bytes := by
  obtain ⟨place, bytes, hlocate, hmay, hfind⟩ := h.input
  have hread := GuardedTree.read_of_find? hlocate hmay hfind
  obtain ⟨hdiffer, hrefused⟩ := differAt_of_run hrun
  refine ⟨bytes, hread, ?_⟩
  by_cases hpaths : job.Overwrites g.tree.current
  · rw [hrefused hpaths, hread]
  · rw [hdiffer.read_eq hlocate (h.locate_ne hpaths hlocate), hread]

end Job

/-! ## Commands -/

section

variable {words : List String} {e : Environment} {outcome : Except Failure Report}

theorem eq_of_no_job (hrun : (run words e : StateM GuardedTree _).run g = (outcome, g'))
    (h : ∀ w job, readWords words = .ok w → Request.ofWords g.kind? w ≠ .ok (.assemble job)) :
    g' = g := by
  have hstays := run_of_no_job (t := g) e h
  rw [hrun] at hstays
  exact hstays

theorem rights_of_run (hrun : (run words e : StateM GuardedTree _).run g = (outcome, g')) :
    g'.rights = g.rights := by
  by_cases hjob : ∃ w job, readWords words = .ok w ∧ Request.ofWords g.kind? w = .ok (.assemble job)
  · obtain ⟨w, job, hwords, hrequest⟩ := hjob
    rw [run_of_request hwords hrequest] at hrun
    cases hrun
    exact (Job.differAt_of_run Prod.mk.eta.symm).1.same.rights
  · rw [eq_of_no_job hrun fun w job hwords hrequest => hjob ⟨w, job, hwords, hrequest⟩]

end

/-- What a command spares. Rights never change. If the command asks for no assembly, the tree stays
as it is. If it asks for one, its source stays readable with the same bytes, and nothing changes but
where its output paths lead. The tree stays as it is if an output path leads to the source or if the
source is not assembled. If a file cannot be written, the exit code is not zero, and nothing is
changed but where the paths before it lead. There is nothing left there if and only if the
directories of all of them may be changed; what was written to one that may not be stays. -/
theorem run_spares_files {words : List String} {e : Environment} {g g' : GuardedTree}
    {outcome : Except Failure Report}
    (hrun : (run words e : StateM GuardedTree _).run g = (outcome, g')) :
    g'.rights = g.rights ∧
    ((∀ w job, readWords words = .ok w → Request.ofWords g.kind? w ≠ .ok (.assemble job)) →
      g' = g) ∧
    ∀ w job, readWords words = .ok w → Request.ofWords g.kind? w = .ok (.assemble job) →
      (∃ bytes, g.read job.input = .ok bytes ∧ g'.read job.input = .ok bytes) ∧
      (∀ place, (∀ path ∈ job.outputPaths, g.locate path ≠ .ok place) →
        g'.tree.find? place = g.tree.find? place) ∧
      (job.Overwrites g.tree.current → g' = g) ∧
      (∀ failure, job.filesFrom (job.settings e) (g.read job.input) = .error failure → g' = g) ∧
      ∀ before file after g₁ fault, ¬ job.Overwrites g.tree.current →
        job.filesFrom (job.settings e) (g.read job.input) = .ok (before ++ file :: after) →
        writeAll g before = .ok g₁ → g₁.write file.path file.bytes = .error fault →
        ((∀ earlier ∈ before, ¬ g'.HasEntry earlier.path) ↔
          ∀ earlier ∈ before, g.MayRemove earlier.path) ∧
        (∀ place, g.mayChange place = false → g'.tree.find? place = g₁.tree.find? place) ∧
        (∀ place, (∀ earlier ∈ before, g.locate earlier.path ≠ .ok place) →
          g'.tree.find? place = g.tree.find? place) ∧
        ∃ report, outcome = .ok report ∧ report.exitCode ≠ 0 := by
  refine ⟨rights_of_run hrun, eq_of_no_job hrun, ?_⟩
  intro w job hwords hrequest
  rw [run_of_request hwords hrequest] at hrun
  cases hjob : (job.run e : StateM GuardedTree Report).run g with
  | mk report tree =>
    rw [hjob] at hrun
    cases hrun
    have hasked := Job.askedBy_of_request hrequest
    obtain ⟨hdiffer, hrefused⟩ := Job.differAt_of_run hjob
    refine ⟨hasked.read_input_of_run hjob, hdiffer.untouched, hrefused, ?_, ?_⟩
    · intro failure hfailure
      by_cases hpaths : job.Overwrites g.tree.current
      · exact hrefused hpaths
      · obtain ⟨_, heq, _⟩ := Job.run_of_failure (t := g) hpaths hfailure
        rw [hjob] at heq
        exact congrArg Prod.snd heq
    · intro before file after g₁ fault hpaths hfiles hbefore hfault
      obtain ⟨report', heq, hexit⟩ := Job.run_of_fault (t := g) hpaths hfiles hbefore hfault
      cases hjob.symm.trans heq
      refine ⟨hasEntry_undone hbefore, fun place => find?_undone hbefore, ?_, report, rfl,
        hexit ▸ Trouble.exitCode_ne_zero _⟩
      intro place hplace
      refine (differAt_undone hbefore).untouched place fun path hpath => ?_
      obtain ⟨earlier, hearlier, rfl⟩ := List.mem_map.1 hpath
      exact hplace earlier hearlier

/-- The image and the listing are written to one place, and then the symbol file cannot be: its path
goes through a file. What was in that place is gone, and all else is there. -/
theorem run_spares_files_undone :
    ∃ report g',
      (run ["a.basm", "-o", "./out", "-l", "out", "-s", "kept/x"] {} : StateM GuardedTree _).run
        (FileTree.unguarded ⟨[(["a.basm"], .file [110, 111, 112, 10]), (["out"], .file [1]),
          (["kept"], .file [2])], []⟩) = (.ok report, g') ∧
      report.exitCode ≠ 0 ∧ ¬ g'.HasEntry ⟨.current, ["out"]⟩ ∧
      g'.tree.find? ["kept"] = some (.file [2]) ∧
      g'.read ⟨.current, ["a.basm"]⟩ = .ok [110, 111, 112, 10] := by
  let words := ["a.basm", "-o", "./out", "-l", "out", "-s", "kept/x"]
  let g : GuardedTree := FileTree.unguarded
    ⟨[(["a.basm"], .file [110, 111, 112, 10]), (["out"], .file [1]), (["kept"], .file [2])], []⟩
  let w : Words := ⟨[⟨.output, "./out"⟩, ⟨.listing, "out"⟩, ⟨.symbols, "kept/x"⟩], ["a.basm"]⟩
  let out : Path := ⟨.current, ["out"]⟩
  let inside : Path := ⟨.current, ["kept", "x"]⟩
  let job : Job := ⟨⟨.current, ["a.basm"]⟩, some out, some out, some inside, false, none, false⟩
  have hwords : readWords words = .ok w := by decide +kernel
  have hrequest : Request.ofWords g.kind? w = .ok (.assemble job) := by decide +kernel
  have hpaths : ¬ job.Overwrites g.tree.current := by decide +kernel
  have hread : g.read job.input = .ok [110, 111, 112, 10] := by decide +kernel
  have hplace : g.locate out ≠ .ok ["kept"] := by decide +kernel
  -- The bytes of the files are not looked at, only where their paths lead.
  have hwrites : (job.filesFrom (job.settings {}) (g.read job.input)).map (fun files =>
      (files.map OutputFile.path, (writeAll g files.dropLast).map fun g₁ =>
        (g₁.write inside (files.getLastD ⟨out, [], ""⟩).bytes).map fun _ => ())) =
      .ok ([out, out, inside], .ok (.error .notDirectory)) := by decide +kernel
  obtain ⟨files, hfiles, hpair⟩ := map_ok.1 hwrites
  obtain ⟨hmap, hbefore⟩ := Prod.mk.inj hpair
  obtain ⟨image, _, rfl, himage, hmap⟩ := List.map_eq_cons_iff.1 hmap
  obtain ⟨listing, _, rfl, hlisting, hmap⟩ := List.map_eq_cons_iff.1 hmap
  obtain ⟨symbols, _, rfl, hsymbols, hmap⟩ := List.map_eq_cons_iff.1 hmap
  cases List.map_eq_nil_iff.1 hmap
  obtain ⟨g₁, hbefore, hfault⟩ := map_ok.1 hbefore
  have hkept : ∀ earlier ∈ [image, listing], g.locate earlier.path ≠ .ok ["kept"] := by
    simp [himage, hlisting, hplace]
  cases hrun : (run words {} : StateM GuardedTree _).run g with
  | mk outcome g' =>
    obtain ⟨_, _, hjob⟩ := run_spares_files hrun
    obtain ⟨⟨bytes, hbytes, hstays⟩, _, _, _, hundone⟩ := hjob w job hwords hrequest
    obtain ⟨hgone, _, huntouched, report, rfl, hexit⟩ :=
      hundone [image, listing] symbols [] g₁ _ hpaths hfiles hbefore
        (hsymbols ▸ map_error.1 hfault)
    have hgone := hgone.2 (fun _ _ _ _ => rfl) image List.mem_cons_self
    rw [himage] at hgone
    rw [← hbytes, hread] at hstays
    exact ⟨report, g', rfl, hexit, hgone, huntouched ["kept"] hkept, hstays⟩

/-- The image is written to a file that is there, in a directory whose entries may not be changed.
Then the listing cannot be written, and the image stays. -/
theorem run_keeps_fixed_output :
    ∃ report g',
      (run ["a.basm", "-o", "out", "-l", "missing/x"] {} : StateM GuardedTree _).run
        ⟨⟨[(["a.basm"], .file [110, 111, 112, 10]), (["out"], .file [1])], []⟩,
          fun place => if place = [] then { write := false } else {}⟩ = (.ok report, g') ∧
      report.exitCode = 2 ∧ g'.HasEntry ⟨.current, ["out"]⟩ ∧
      g'.tree.find? ["out"] = some (.file [0, 0]) := by
  let g : GuardedTree :=
    ⟨⟨[(["a.basm"], .file [110, 111, 112, 10]), (["out"], .file [1])], []⟩,
      fun place => if place = [] then { write := false } else {}⟩
  have hruns : ((run ["a.basm", "-o", "out", "-l", "missing/x"] {} :
      StateM GuardedTree _).run g).1.map Report.exitCode = .ok 2 ∧
      ((run ["a.basm", "-o", "out", "-l", "missing/x"] {} :
        StateM GuardedTree _).run g).2.locate ⟨.current, ["out"]⟩ = .ok ["out"] ∧
      ((run ["a.basm", "-o", "out", "-l", "missing/x"] {} :
        StateM GuardedTree _).run g).2.tree.find? ["out"] = some (.file [0, 0]) := by
    decide +kernel
  generalize (run ["a.basm", "-o", "out", "-l", "missing/x"] {} : StateM GuardedTree _).run g = r
    at hruns ⊢
  obtain ⟨outcome, g'⟩ := r
  obtain ⟨hexit, hlocate, hfind⟩ := hruns
  obtain ⟨report, rfl, hcode⟩ := map_ok.1 hexit
  exact ⟨report, g', rfl, hcode, ⟨["out"], _, hlocate, hfind⟩, hfind⟩

end Command

end Risc16
