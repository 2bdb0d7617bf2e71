import Risc16.Proofs.CheckedRun
import Risc16.Proofs.History
import Risc16.Proofs.JobRuns

/-!
# The files that a command leaves

A command that succeeds has written the byte image, and the listing and the symbol file if they were
asked for. The only check on their paths is that none leads to the source. Two of them may lead to
the same place, and then the file that is written last is the one that stays.

Results:
1. `Program.image_ne_listing`, `Program.image_ne_symbolFile`, `Output.listing_ne_symbolFile`: the
   three files always differ.
2. `Command.Job.leaves_of_run`: what a successful job leaves.
3. `Command.run_leaves_outputs`: all that was asked for is there if and only if no two paths lead to
   the same place.
-/

namespace Risc16

open Outcome

/-! ## Three files that differ -/

namespace Output

variable (o : Output)

theorem encode_listing :
    ∃ rest, Text.Utf8.encode o.listing.toList = 0x42 :: 0x52 :: rest := by
  obtain ⟨lines, hlines⟩ : ∃ lines, o.listingLines = "BRISC Assembler Listing" :: lines := ⟨_, rfl⟩
  rw [listing, hlines, Text.toList_ofLines_cons]
  exact ⟨_, rfl⟩

theorem encode_symbolFile :
    ∃ rest, Text.Utf8.encode o.symbolFile.toList = 0x23 :: 0x20 :: 0x53 :: 0x79 :: rest := by
  obtain ⟨lines, hlines⟩ : ∃ lines, o.symbolFileLines = "# Symbol table" :: lines := ⟨_, rfl⟩
  rw [symbolFile, hlines, Text.toList_ofLines_cons]
  exact ⟨_, rfl⟩

theorem listing_ne_symbolFile :
    Text.Utf8.encode o.listing.toList ≠ Text.Utf8.encode o.symbolFile.toList := by
  obtain ⟨rest, hlisting⟩ := o.encode_listing
  obtain ⟨rest', hsymbols⟩ := o.encode_symbolFile
  rw [hlisting, hsymbols]
  intro h
  exact absurd (List.cons.inj h).1 (by decide)

end Output

namespace Program

variable {p : Program} {s : Settings} {t : SymbolTable} {o : Output}

theorem readsBack_of_mem {word : Nat} (hvalid : s.isValid = true) (hbuild : p.build s t = .ok o)
    (hword : word ∈ o.words) : ∃ operation : Operation, operation.ReadsBack word := by
  obtain ⟨i, _, hencode⟩ := exists_encode_of_build hbuild hword
  exact ⟨_, Operation.encode_readsBack hvalid hencode⟩

/-- The listing starts with two letters that no instruction has for its word. -/
theorem image_ne_listing (hvalid : s.isValid = true) (hbuild : p.build s t = .ok o) :
    o.words.flatMap wordBytesOf ≠ Text.Utf8.encode o.listing.toList := by
  intro himage
  obtain ⟨rest, hlisting⟩ := o.encode_listing
  have hwords := wordsOf_flatMap_wordBytesOf (word_le_of_build hvalid hbuild)
  rw [himage, hlisting, wordsOf] at hwords
  have hword : 0x4252 ∈ o.words := hwords ▸ List.mem_cons_self
  obtain ⟨operation, htells⟩ := readsBack_of_mem hvalid hbuild hword
  have hdecoded := htells.decoded
  cases hdecoded.symm.trans (show decodeWord? 0x4252 = none by decide)

/-- The symbol file may start with the word of an instruction, but the next two letters would be one
with a field that has to be zero and is not. -/
theorem image_ne_symbolFile (hvalid : s.isValid = true) (hbuild : p.build s t = .ok o) :
    o.words.flatMap wordBytesOf ≠ Text.Utf8.encode o.symbolFile.toList := by
  intro himage
  obtain ⟨rest, hsymbols⟩ := o.encode_symbolFile
  have hwords := wordsOf_flatMap_wordBytesOf (word_le_of_build hvalid hbuild)
  rw [himage, hsymbols, wordsOf, wordsOf] at hwords
  have hword : 0x5379 ∈ o.words := hwords ▸ List.mem_cons_of_mem _ List.mem_cons_self
  obtain ⟨operation, htells⟩ := readsBack_of_mem hvalid hbuild hword
  have hdecoded : decodeWord? 0x5379 = some (.alu .and, (Mnemonic.alu .and).operandsIn 0x5379) := by
    decide
  rw [htells.decoded] at hdecoded
  have hmnemonic : operation.mnemonic = .alu .and := congrArg Prod.fst (Option.some.inj hdecoded)
  have hzero : lowestField 0x5379 = 0 :=
    htells.unused _ (by rw [hmnemonic]; exact List.mem_singleton_self _)
  exact absurd hzero (by decide)

end Program

theorem Session.isValid_of_new {s : Settings} {session : Session}
    (h : Session.new s = .ok session) : session.settings.isValid = true := by
  unfold new at h
  split at h
  · next hvalid =>
    cases h
    exact hvalid
  · cases h

/-- The bytes of a successful assembly are those of its words, and its program was built. -/
theorem Session.build_of_assembleFile {session : Session} {path : Path}
    {contents : Except FileFault (List UInt8)} {bytes : List UInt8}
    (hvalid : session.settings.isValid = true)
    (h : (session.assembleFile path contents).result = .ok bytes) :
    ∃ draft : Draft, draft.program.build session.settings draft.symbols =
        .ok (session.assembleFile path contents).session.output ∧
      bytes = (session.assembleFile path contents).session.output.words.flatMap wordBytesOf := by
  rw [assembleFile_eq] at h ⊢
  cases hsource : sourceOfFile path contents with
  | error failure =>
    rw [hsource] at h
    cases h
  | ok source =>
    rw [hsource] at h
    dsimp only at h ⊢
    rw [assemble_result_of_isValid hvalid] at h
    obtain ⟨o, hassembly, hbytes⟩ := map_ok.1 (mapError_ok.1 h)
    rw [assemble_output, hassembly]
    rw [Assembly.ofSource_result] at hassembly
    obtain ⟨draft, _, hbuild⟩ := bind_ok.1 hassembly
    exact ⟨draft, hbuild, hbytes.symm⟩

/-! ## Jobs -/

namespace Command

namespace Job

variable {job : Job} {e : Environment} {t t' : FileTree} {bytes : List UInt8} {o : Output}

/-- A job that succeeds leaves the files that the assembly asks for. -/
theorem leaves_of_run {report : Report}
    (hrun : (job.run e : StateM FileTree Report).run t = (report, t'))
    (hexit : report.exitCode = 0) :
    ∃ session bytes, Session.new (job.settings e) = .ok session ∧
      (session.assembleFile job.input (t.read job.input)).result = .ok bytes ∧
      Leaves t.unguarded (job.files bytes
        (session.assembleFile job.input (t.read job.input)).session.output) t'.unguarded := by
  have hruns := runsTo_of_run hrun
  rw [hexit] at hruns
  generalize hcode : 0 = code at hruns
  cases hruns with
  | refused => cases hcode
  | failed => exact absurd hcode.symm (Trouble.exitCode_ne_zero _)
  | undone => exact absurd hcode.symm (Trouble.exitCode_ne_zero _)
  | written _ hfiles hwritten =>
    obtain ⟨session, bytes, hnew, hbytes, rfl⟩ := filesFrom_ok.1 hfiles
    exact ⟨session, bytes, hnew, hbytes, leaves_of_writeAll (writeAll_unguarded hwritten)⟩

/-- All that a job asks for is in a tree: the byte image, and the listing and the symbol file if
they have paths. -/
structure LeftIn (job : Job) (bytes : List UInt8) (o : Output) (t : FileTree) : Prop where
  image : t.read job.outputPath = .ok bytes
  listing : ∀ path ∈ job.listing?, t.read path = .ok (Text.Utf8.encode o.listing.toList)
  symbols : ∀ path ∈ job.symbols?, t.read path = .ok (Text.Utf8.encode o.symbolFile.toList)

theorem forall_mem_files {P : Path → List UInt8 → Prop} :
    (∀ file ∈ job.files bytes o, P file.path file.bytes) ↔
      P job.outputPath bytes ∧
        (∀ path ∈ job.listing?, P path (Text.Utf8.encode o.listing.toList)) ∧
        ∀ path ∈ job.symbols?, P path (Text.Utf8.encode o.symbolFile.toList) := by
  cases hlisting : job.listing? <;> cases hsymbols : job.symbols? <;> simp [files, *]

theorem leftIn_iff :
    job.LeftIn bytes o t ↔ ∀ file ∈ job.files bytes o, t.read file.path = .ok file.bytes := by
  rw [forall_mem_files (P := fun path bytes => t.read path = .ok bytes)]
  exact ⟨fun h => ⟨h.image, h.listing, h.symbols⟩, fun h => ⟨h.1, h.2.1, h.2.2⟩⟩

theorem nodup_bytes_files {p : Program} {s : Settings} {symbols : SymbolTable}
    (hvalid : s.isValid = true) (hbuild : p.build s symbols = .ok o) (job : Job) :
    ((job.files (o.words.flatMap wordBytesOf) o).map OutputFile.bytes).Nodup := by
  have himage := Program.image_ne_listing hvalid hbuild
  have himage' := Program.image_ne_symbolFile hvalid hbuild
  have hother := o.listing_ne_symbolFile
  cases hlisting : job.listing? <;> cases hsymbols : job.symbols? <;> simp [files, *]

end Job

/-- What a command leaves that succeeds. It has assembled its source; a place to which no output
path leads is as it was; and a file that it wrote is there if none of its later files has the same
place. So all that was asked for is there if and only if no two output paths lead to the same
place. -/
theorem run_leaves_outputs {words : List String} {e : Environment} {w : Words} {job : Job}
    {t t' : FileTree} {report : Report} (hwords : readWords words = .ok w)
    (hrequest : Request.ofWords t.kind? w = .ok (.assemble job))
    (hrun : (run words e : StateM FileTree _).run t = (.ok report, t'))
    (hexit : report.exitCode = 0) :
    ∃ session bytes o, Session.new (job.settings e) = .ok session ∧
      (session.assembleFile job.input (t.read job.input)).result = .ok bytes ∧
      (session.assembleFile job.input (t.read job.input)).session.output = o ∧
      (∀ place, (∀ path ∈ job.outputPaths, t.locate path ≠ .ok place) →
        t'.find? place = t.find? place) ∧
      (∀ before file after, job.files bytes o = before ++ file :: after →
        (∀ later ∈ after, t.locate later.path ≠ t.locate file.path) →
        t'.read file.path = .ok file.bytes) ∧
      (job.LeftIn bytes o t' ↔ (job.outputPaths.map t.locate).Nodup) := by
  have hjob : (job.run e : StateM FileTree _).run t = (report, t') := by
    rw [run_of_request hwords hrequest] at hrun
    injection hrun with hreport htree
    exact Prod.ext (Except.ok.inj hreport) htree
  obtain ⟨session, bytes, hnew, hbytes, hleaves⟩ := Job.leaves_of_run hjob hexit
  have hvalid := Session.isValid_of_new hnew
  obtain ⟨draft, hbuild, hcode⟩ := Session.build_of_assembleFile hvalid hbytes
  refine ⟨session, bytes, _, hnew, hbytes, rfl, ?_, ?_, ?_⟩
  · intro place hplace
    refine hleaves.untouched place ?_
    rw [Job.map_path_files]
    exact hplace
  · intro before file after hsplit hlater
    exact hleaves.read_of_kept hsplit hlater
  · have hiff := hleaves.read_iff (hcode ▸ Job.nodup_bytes_files hvalid hbuild job)
    rw [Job.leftIn_iff, hiff, ← Job.map_path_files job bytes, List.map_map]
    rfl

/-- The image and the listing are asked for at one path. The command succeeds, and there is no image
but the listing in its place. -/
theorem run_leaves_outputs_one_path :
    ∃ t' bytes o,
      (run ["a.basm", "-o", "out", "-l", "out"] {} : StateM FileTree _).run
        ⟨[(["a.basm"], .file [110, 111, 112, 10])], []⟩ = (.ok ⟨0, "", ""⟩, t') ∧
      ¬ Job.LeftIn ⟨⟨.current, ["a.basm"]⟩, some ⟨.current, ["out"]⟩,
        some ⟨.current, ["out"]⟩, none, false, none, false⟩ bytes o t' ∧
      t'.read ⟨.current, ["out"]⟩ = .ok (Text.Utf8.encode o.listing.toList) := by
  let t : FileTree := ⟨[(["a.basm"], .file [110, 111, 112, 10])], []⟩
  let out : Path := ⟨.current, ["out"]⟩
  let job : Job := ⟨⟨.current, ["a.basm"]⟩, some out, some out, none, false, none, false⟩
  have hwords : readWords ["a.basm", "-o", "out", "-l", "out"] =
      .ok ⟨[⟨.output, "out"⟩, ⟨.listing, "out"⟩], ["a.basm"]⟩ := by decide +kernel
  have hrequest : Request.ofWords t.kind?
      ⟨[⟨.output, "out"⟩, ⟨.listing, "out"⟩], ["a.basm"]⟩ = .ok (.assemble job) := by
    decide +kernel
  obtain ⟨t', hrun⟩ : ∃ t', (run ["a.basm", "-o", "out", "-l", "out"] {} :
      StateM FileTree _).run t = (.ok ⟨0, "", ""⟩, t') := by
    have hreport : ((run ["a.basm", "-o", "out", "-l", "out"] {} : StateM FileTree _).run t).1 =
        .ok ⟨0, "", ""⟩ := by decide +kernel
    generalize (run ["a.basm", "-o", "out", "-l", "out"] {} : StateM FileTree _).run t = r
      at hreport ⊢
    obtain ⟨report, t'⟩ := r
    cases hreport
    exact ⟨t', rfl⟩
  obtain ⟨session, bytes, o, _, _, _, _, hkept, hleft⟩ :=
    run_leaves_outputs hwords hrequest hrun rfl
  have hsame : ¬ (job.outputPaths.map t.locate).Nodup := by decide +kernel
  have hlast := hkept [_] ⟨out, Text.Utf8.encode o.listing.toList, _⟩ [] rfl nofun
  exact ⟨t', bytes, o, hrun, mt hleft.1 hsame, hlast⟩

end Command

end Risc16
