import Risc16.Proofs.PathLookup

/-!
# What a request promises

The words of a command are checked before there is a job. A job that comes out of them has an input
file that can be read, paths in normal form, and a capacity that a machine can have, if it has one.

Results:
1. `Command.checkSwitches_ok`: every switch that was mentioned has a value that passed its check.
2. `Command.Job.askedBy_of_request`: what is known of a job that words ask for.
-/

namespace Risc16

open Outcome

namespace Command

variable {kind? : String → Option EntryKind} {w : Words} {text parameter : String} {path : Path}

/-! ## Values -/

theorem readPath_ok {read : String → Except ValueFault Path} :
    readPath parameter read text = .ok path ↔ Text.hasZero text = false ∧ read text = .ok path := by
  have htexts : Failure.ofTexts? [text] =
      if Text.hasZero text then some .zeroCharacter else none := by
    rw [Failure.ofTexts?, List.any_cons, List.any_nil, Bool.or_false]
  rw [readPath, htexts]
  cases Text.hasZero text with
  | true => simp
  | false => simp [readValue, mapError_ok]

theorem readInput_ok :
    readInput kind? text = .ok path ↔ kind? text = some .file ∧ path = Path.ofText text := by
  unfold readInput
  split
  · next h => simp [h]
  · next h => simp [h]
  · next h => simp [h]
  · next h => simp [h, eq_comm]

theorem readCapacity_ok {n : Int} :
    readCapacity text = .ok n ↔
      Text.readInteger? text.toList = some n ∧ 1 ≤ n ∧ n ≤ Settings.maxCapacity := by
  unfold readCapacity
  split
  · next h => simp [h]
  · next m h =>
    rw [h, Option.some.injEq]
    split
    · next hrange =>
      rw [Except.ok.injEq]
      exact ⟨fun heq => heq ▸ ⟨rfl, hrange⟩, fun h => h.1⟩
    · next hrange =>
      refine ⟨nofun, ?_⟩
      rintro ⟨rfl, hmin, hmax⟩
      exact absurd ⟨hmin, hmax⟩ hrange

theorem checkSwitches_ok {switches : List Switch} :
    checkSwitches kind? w switches = .ok () ↔
      ∀ s ∈ switches, checkSwitch kind? w s = .ok () := by
  induction switches with
  | nil => simp [checkSwitches]
  | cons s switches ih =>
    rw [checkSwitches, bind_ok, List.forall_mem_cons, ← ih]
    exact ⟨fun ⟨(), hs, hrest⟩ => ⟨hs, hrest⟩, fun ⟨hs, hrest⟩ => ⟨(), hs, hrest⟩⟩

theorem checkSwitch_capacity (h : w.value? .capacity = some text) :
    checkSwitch kind? w .capacity =
      (readValue Switch.capacity.describe readCapacity text).map fun _ => () := by
  simp only [checkSwitch, h]

theorem Words.mem_mentioned {s : Switch} (h : w.value? s = some text) : s ∈ w.mentioned := by
  obtain ⟨given, hfind, _⟩ := Option.map_eq_some_iff.1 h
  have hgiven : given ∈ w.given := List.mem_reverse.1 (List.mem_of_find?_eq_some hfind)
  have hswitch : given.switch = s := by simpa using List.find?_some hfind
  rw [mentioned, List.mem_eraseDups, ← hswitch]
  exact List.mem_map_of_mem hgiven

/-! ## Jobs -/

namespace Job

variable {job : Job} {g : GuardedTree} {e : Environment}

/-- What is known of a job that words ask for in a tree.

* `input`, `input_text`: the input file is there and may be read, and its path can be handed to the
  system.
* `input_normal`, `output_normal`: no part of a path stays where it is.
* `capacity`, `no_capacity`: the capacity is the value of its switch, which a machine can have.
* `strict`: devices have to be wired if the switch for that was given. -/
structure AskedBy (job : Job) (w : Words) (g : GuardedTree) : Prop where
  input : ∃ place bytes, g.locate job.input = .ok place ∧ (g.rights place).read = true ∧
    g.tree.find? place = some (.file bytes)
  input_text : Text.hasZero job.input.render = false
  input_normal : job.input.Normal
  output_normal : ∀ path ∈ job.outputPaths, path.Normal
  capacity : ∀ text, w.value? .capacity = some text → ∃ n,
    Text.readInteger? text.toList = some n ∧ 1 ≤ n ∧ n ≤ Settings.maxCapacity ∧
      job.capacity? = some n
  no_capacity : w.value? .capacity = none → job.capacity? = none
  strict : job.strict = w.has .strict

theorem normal_of_mem_outputPaths (hinput : job.input.Normal)
    (hgiven : ∀ path, path ∈ job.output? ∨ path ∈ job.listing? ∨ path ∈ job.symbols? →
      path.Normal) :
    ∀ path ∈ job.outputPaths, path.Normal := by
  intro path hpath
  rcases List.mem_cons.1 hpath with rfl | hpath
  · cases houtput : job.output? with
    | some output =>
      rw [outputPath, houtput]
      exact hgiven output (.inl houtput)
    | none =>
      rw [outputPath, houtput]
      -- Without a path of its own, the image goes next to the source.
      cases himage : job.input.image? with
      | none => exact hinput
      | some image => exact hinput.image himage
  · rcases List.mem_append.1 hpath with hpath | hpath
    · exact hgiven path (.inr (.inl (Option.mem_toList.1 hpath)))
    · exact hgiven path (.inr (.inr (Option.mem_toList.1 hpath)))

theorem askedBy_of_ofWords (h : Job.ofWords g.kind? w = .ok job) : job.AskedBy w g := by
  obtain ⟨_, hchecks, h⟩ := bind_ok.1 h
  cases harguments : w.arguments with
  | nil =>
    rw [harguments] at h
    cases h
  | cons text extra =>
    rw [harguments] at h
    obtain ⟨input, hinput, h⟩ := bind_ok.1 h
    obtain ⟨hzero, hread⟩ := readPath_ok.1 hinput
    obtain ⟨hkind, rfl⟩ := readInput_ok.1 hread
    split at h
    · cases h
      have hnormal := Path.normal_ofText text
      refine ⟨GuardedTree.file_of_kind? hkind, Path.hasZero_render_ofText hzero, hnormal,
        normal_of_mem_outputPaths hnormal ?_, ?_, ?_, rfl⟩
      · rintro path (hpath | hpath | hpath)
        all_goals
          obtain ⟨value, _, rfl⟩ := Option.map_eq_some_iff.1 hpath
          exact Path.normal_ofText value
      · intro value hvalue
        have hcheck := checkSwitches_ok.1 hchecks .capacity (Words.mem_mentioned hvalue)
        rw [checkSwitch_capacity hvalue] at hcheck
        obtain ⟨n, hn, _⟩ := map_ok.1 hcheck
        obtain ⟨hinteger, hmin, hmax⟩ := readCapacity_ok.1 (mapError_ok.1 hn)
        refine ⟨n, hinteger, hmin, hmax, ?_⟩
        rw [hvalue]
        exact hinteger
      · intro hvalue
        rw [hvalue]
        rfl
    · cases h

/-- What is known of a job once its words are accepted. -/
theorem askedBy_of_request (h : Request.ofWords g.kind? w = .ok (.assemble job)) :
    job.AskedBy w g := by
  unfold Request.ofWords at h
  split at h
  · cases h
  · cases h
  · obtain ⟨job', hjob, heq⟩ := map_ok.1 h
    cases heq
    exact askedBy_of_ofWords hjob

end Job

end Command

end Risc16
