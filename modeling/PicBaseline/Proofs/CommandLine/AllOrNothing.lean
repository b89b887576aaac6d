import PicBaseline.CommandLine.Run
import PicBaseline.Proofs.CommandLine.FileSystem

/-!
# Proofs — a disassembly is made whole or not at all

A run of `disassemble` goes through four stages: the text is loaded, its lines are read, the records
are assembled, and the rendering is written.  Which stage fails can be said of the stages alone,
without a run (`Fails fs s source format out`), and decides what the run leaves behind.  The files
may be in any file system, and nothing is said about which paths it can read or write.

* `Disassembles fs s source p`: the first three stages give the program `p`.
* `fails_iff`: a run fails because there is no such program or because its rendering cannot be
  written.
* `Command.run_of_fails`, `Command.run_printed`, `Command.run_to_file`: what is left behind by a run
  that fails, by one that prints and by one that writes.
* `run_disassemble_all_or_nothing`: the three cases of a valid invocation.
-/

namespace PicBaseline.CommandLine

variable {fs : FileSystem} {s after : fs.State} {source : Source} {format : Format}
  {out : Option String} {path : String} {p q : Program}

/-! ### Stages -/

/-- The text that a source stands for. -/
def Source.text (fs : FileSystem) (s : fs.State) : Source → Except FileError String
  | sample    => .ok sampleHex
  | file path => fs.read s path >>= textOf

/-- The source is loaded, read and assembled, and this is the program. -/
def Disassembles (fs : FileSystem) (s : fs.State) (source : Source) (p : Program) : Prop :=
  ∃ text rs, source.text fs s = .ok text ∧ IntelHex.readRecords text = .ok rs ∧ assemble rs = .ok p

/-- A program in a format, before the line feed that ends the output. -/
def rendering (p : Program) : Format → String
  | .text => p.listing
  | .json => p.toJson.pretty

/-- A stage fails, and the ones before it do not. -/
inductive Fails (fs : FileSystem) (s : fs.State) (source : Source) (format : Format)
    (out : Option String) : Prop
  | loading {e : FileError} (fault : source.text fs s = .error e)
  | reading {text : String} {e : IntelHex.ReadError} (loaded : source.text fs s = .ok text)
      (fault : IntelHex.readRecords text = .error e)
  | assembling {text : String} {rs : List HexRecord} {e : AssembleError}
      (loaded : source.text fs s = .ok text) (read : IntelHex.readRecords text = .ok rs)
      (fault : assemble rs = .error e)
  | writing {p : Program} {path : String} {e : FileError}
      (disassembled : Disassembles fs s source p) (target : out = some path)
      (fault : (fs.write s path (rendering p format ++ "\n").toUTF8).1 = .error e)

/-- The stages give one program at most. -/
theorem Disassembles.unique (hp : Disassembles fs s source p) (hq : Disassembles fs s source q) :
    p = q := by
  obtain ⟨text, rs, htext, hrs, hp⟩ := hp
  obtain ⟨text', rs', htext', hrs', hq⟩ := hq
  obtain rfl := Except.ok.inj (htext.symm.trans htext')
  obtain rfl := Except.ok.inj (hrs.symm.trans hrs')
  exact Except.ok.inj (hp.symm.trans hq)

/-- A stage fails if there is no program, or if it cannot be written. -/
theorem fails_iff :
    Fails fs s source format out ↔
      (∀ p, ¬ Disassembles fs s source p) ∨
        ∃ p path e, Disassembles fs s source p ∧ out = some path ∧
          (fs.write s path (rendering p format ++ "\n").toUTF8).1 = .error e := by
  constructor
  · intro h
    cases h with
    | loading hfault =>
        refine Or.inl ?_
        rintro p ⟨text, rs, htext, -, -⟩
        cases hfault.symm.trans htext
    | reading hloaded hfault =>
        refine Or.inl ?_
        rintro p ⟨text, rs, htext, hrs, -⟩
        obtain rfl := Except.ok.inj (hloaded.symm.trans htext)
        cases hfault.symm.trans hrs
    | assembling hloaded hread hfault =>
        refine Or.inl ?_
        rintro p ⟨text, rs, htext, hrs, hp⟩
        obtain rfl := Except.ok.inj (hloaded.symm.trans htext)
        obtain rfl := Except.ok.inj (hread.symm.trans hrs)
        cases hfault.symm.trans hp
    | writing hp htarget hfault => exact Or.inr ⟨_, _, _, hp, htarget, hfault⟩
  · rintro (h | ⟨p, path, e, hp, htarget, hfault⟩)
    · -- The first of the three stages that fails.
      cases htext : source.text fs s with
      | error e => exact .loading htext
      | ok text =>
          cases hrs : IntelHex.readRecords text with
          | error e => exact .reading htext hrs
          | ok rs =>
              cases hp : assemble rs with
              | error e => exact .assembling htext hrs hp
              | ok p => exact absurd ⟨text, rs, htext, hrs, hp⟩ (h p)
    · exact .writing hp htarget hfault

/-! ### Loading -/

theorem ofHex_eq_ok {text : String} :
    Program.ofHex text = .ok p ↔
      ∃ rs, IntelHex.readRecords text = .ok rs ∧ assemble rs = .ok p := by
  unfold Program.ofHex
  cases IntelHex.readRecords text with
  | error e => simp
  | ok rs => simp [mapError_returns]

/-- **Loading gives the program of the source**, if there is one, and changes no file. -/
theorem Source.load_run (source : Source) (fs : FileSystem) (s : fs.State) :
    ∃ loaded, (source.load fs.access).run s = (loaded, s) ∧
      ∀ p, loaded = .ok p ↔ Disassembles fs s source p := by
  cases source with
  | sample =>
      refine ⟨_, rfl, fun p => ?_⟩
      simp [Disassembles, Source.text, mapError_returns, ofHex_eq_ok]
  | file path =>
      have hread : (fs.access.readText path).run s = (Source.text fs s (.file path), s) := rfl
      cases htext : Source.text fs s (.file path) with
      | error e =>
          refine ⟨.error (.reading path e), ?_, fun p => ?_⟩
          · rw [Source.load, StateT.run_bind, hread, htext]
            rfl
          · simp [Disassembles, htext]
      | ok text =>
          refine ⟨(Program.ofHex text).mapError (.disassembling path), ?_, fun p => ?_⟩
          · rw [Source.load, StateT.run_bind, hread, htext]
            rfl
          · simp [Disassembles, htext, mapError_returns, ofHex_eq_ok]

theorem renderProgram_eq (p : Program) (format : Format) :
    renderProgram p format = rendering p format ++ "\n" := by
  cases format <;> rfl

/-! ### Runs -/

namespace Command

/-- The output of a source that disassembles; the files stay as they are. -/
theorem output_of_disassembles (h : Disassembles fs s source p) :
    ((disassemble source format out).output fs.access).run s =
      (.ok (rendering p format ++ "\n"), s) := by
  obtain ⟨loaded, hload, hprogram⟩ := source.load_run fs s
  rw [output, StateT.run_bind, hload, (hprogram p).mpr h, ← renderProgram_eq]
  rfl

/-- A source that does not disassemble has no output, and the files stay as they are too. -/
theorem output_fails (h : ∀ p, ¬ Disassembles fs s source p) :
    ∃ f, ((disassemble source format out).output fs.access).run s = (.error f, s) := by
  obtain ⟨loaded, hload, hprogram⟩ := source.load_run fs s
  cases loaded with
  | ok p => exact absurd ((hprogram p).mp rfl) (h p)
  | error f =>
      refine ⟨f, ?_⟩
      rw [output, StateT.run_bind, hload]
      rfl

/-- Without a target the rendering is printed. -/
theorem run_printed (h : Disassembles fs s source p) :
    ((disassemble source format none).run fs.access).run s =
      (⟨0, rendering p format ++ "\n", ""⟩, s) := by
  rw [Command.run, StateT.run_bind, output_of_disassembles h]
  rfl

/-- A run with an output file ends as the write does. -/
theorem run_to_file (h : Disassembles fs s source p) {result : Except FileError Unit}
    (hwrite : fs.write s path (rendering p format ++ "\n").toUTF8 = (result, after)) :
    ((disassemble source format (some path)).run fs.access).run s =
      (match result with
        | .error e => (Failure.writing e).outcome
        | .ok ()   => ⟨0, "", ""⟩, after) := by
  have hwrite : (fs.access.write path (rendering p format ++ "\n").toUTF8).run s =
      (result, after) := hwrite
  rw [Command.run, StateT.run_bind, output_of_disassembles h]
  show StateT.run (fs.access.write path _ >>= _) s = _
  rw [StateT.run_bind, hwrite]
  cases result <;> rfl

/-- **A run that fails** prints its error only, and leaves all files alone. -/
theorem run_of_fails (h : Fails fs s source format out) :
    ∃ f : Failure, ((disassemble source format out).run fs.access).run s = (f.outcome, s) := by
  rcases fails_iff.mp h with hnone | ⟨p, path, e, hp, rfl, hfault⟩
  · obtain ⟨f, hf⟩ := output_fails hnone
    refine ⟨f, ?_⟩
    rw [Command.run, StateT.run_bind, hf]
    rfl
  · have hafter : (fs.write s path (rendering p format ++ "\n").toUTF8).2 = s :=
      fs.of_write_error (Prod.ext hfault rfl)
    exact ⟨.writing e, run_to_file hp (Prod.ext hfault hafter)⟩

end Command

/-! ### All or nothing -/

/-- **A disassembly is made whole or not at all**, in every file system and whatever files there
are.  Where a stage fails, nothing is printed and no file is different.  Otherwise there is a
program, and its rendering with one line feed behind it is printed, or is the content of the output
file; that file may be the one that was read, and every other file is as it was. -/
theorem run_disassemble_all_or_nothing {args : List String} {source : Source} {format : Format}
    {out : Option String} (h : Command.parse args = .ok (.disassemble source format out))
    (fs : FileSystem) (s : fs.State) :
    ∃ outcome after, (run fs.access args).run s = (outcome, after) ∧
      (Fails fs s source format out →
        outcome.exit = 1 ∧ outcome.stdout = "" ∧ after = s) ∧
      (¬ Fails fs s source format out →
        ∃ p, Disassembles fs s source p ∧ outcome.exit = 0 ∧
          (out = none → outcome.stdout = rendering p format ++ "\n" ∧ after = s) ∧
          ∀ path, out = some path →
            outcome.stdout = "" ∧
            (∃ f, fs.Replaced s after path (rendering p format ++ "\n").toUTF8 f) ∧
            ∀ found, fs.read after path = .ok found →
              found = (rendering p format ++ "\n").toUTF8) := by
  have hrun : run fs.access args = (Command.disassemble source format out).run fs.access := by
    rw [run, h]
  rw [hrun]
  by_cases hfails : Fails fs s source format out
  · obtain ⟨f, hf⟩ := Command.run_of_fails hfails
    exact ⟨_, _, hf, fun _ => ⟨rfl, rfl, rfl⟩, fun hfine => absurd hfails hfine⟩
  · have hfine := hfails
    rw [fails_iff, not_or, not_forall_not] at hfine
    obtain ⟨⟨p, hp⟩, hwrites⟩ := hfine
    cases out with
    | none =>
        refine ⟨_, _, Command.run_printed hp, fun h => absurd h hfails, fun _ => ⟨p, hp, rfl, ?_⟩⟩
        exact ⟨fun _ => ⟨rfl, rfl⟩, fun _ hout => nomatch hout⟩
    | some path =>
        -- Nothing is known of the file system but its laws: the write may go either way.
        rcases hwrite : fs.write s path (rendering p format ++ "\n").toUTF8 with ⟨e | ⟨⟩, after⟩
        · exact absurd ⟨p, path, e, hp, rfl, congrArg Prod.fst hwrite⟩ hwrites
        · refine ⟨_, _, Command.run_to_file hp hwrite, fun h => absurd h hfails,
            fun _ => ⟨p, hp, rfl, fun hout => (nomatch hout), ?_⟩⟩
          intro _ hout
          obtain rfl := Option.some.inj hout
          obtain ⟨f, hf⟩ := FileSystem.replaced_of_write hwrite
          exact ⟨rfl, ⟨f, hf⟩, fun found hfound => hf.read_eq hfound⟩

/-- A listing that takes the place of its own image, by another path to the same file; one that is
a new file of another directory; an image whose second record is no instruction, with an output
file that is there already; and an output file that must not be changed. -/
theorem run_disassemble_all_or_nothing_in_place :
    let image := ":020000000400FA\n:00000001FF\n"
    let broken := ":020000000400FA\n:020002000800F4\n"
    let listing := "Program (1 instructions)\n00h: clrwdt\n".toUTF8
    let t : FileTree := ⟨["work"],
      [(["work"], .directory true), (["tmp"], .directory true),
        (["a.hex", "work"], .file true true image.toUTF8),
        (["b.hex", "work"], .file true true broken.toUTF8),
        (["locked", "work"], .file true false image.toUTF8)]⟩
    let result (args : List String) := (run FileTree.fileSystem.access args).run t
    (∃ outcome after, result ["disassemble", "a.hex", "--out", "../work/./a.hex"] =
        (outcome, after) ∧ outcome.exit = 0 ∧ outcome.stdout = "" ∧
      FileTree.content? after ["a.hex", "work"] = some listing ∧
      FileTree.content? after ["b.hex", "work"] = some broken.toUTF8) ∧
    (∃ outcome after, result ["disassemble", "--out=/tmp/listing.txt", "--", "a.hex"] =
        (outcome, after) ∧ outcome.exit = 0 ∧ outcome.stdout = "" ∧
      (∃ f, FileTree.Leads after "/tmp/listing.txt" f ∧ FileTree.content? after f = some listing) ∧
      ∀ found, FileTree.read after "/tmp/listing.txt" = .ok found → found = listing) ∧
    (∃ outcome, result ["disassemble", "--out=a.hex", "--format", "json", "b.hex"] = (outcome, t) ∧
      outcome.exit = 1 ∧ outcome.stdout = "") ∧
    ∃ outcome, result ["disassemble", "a.hex", "--out", "locked"] = (outcome, t) ∧
      outcome.exit = 1 ∧ outcome.stdout = "" := by
  intro image broken listing t result
  have hread (path text : String) (h : t.read path = .ok text.toUTF8) :
      (Source.file path).text FileTree.fileSystem t = .ok text :=
    bind_returns.mpr ⟨_, h, textOf_toUTF8 text⟩
  have himage := hread "a.hex" image rfl
  have hassemble : (assemble [.data 0#16 [0x04#8, 0x00#8], .endOfFile]).toOption.map
        Program.listing = some "Program (1 instructions)\n00h: clrwdt" ∧
      assemble [.data 0#16 [0x04#8, 0x00#8], .data 2#16 [0x08#8, 0x00#8]] =
        .error ⟨2, .decode 1#16 (.unknownOpcode 0x008#16)⟩ := by
    decide +kernel
  obtain ⟨p, hassembled, hlisting⟩ := returns_of_map_toOption hassemble.1
  have hp : Disassembles FileTree.fileSystem t (.file "a.hex") p :=
    ⟨image, _, himage, by decide, hassembled⟩
  have htext : (rendering p .text ++ "\n").toUTF8 = listing := by
    rw [rendering, hlisting]
    rfl
  have hfine (path : String) (h : ∃ after, t.write path listing = (.ok (), after)) :
      ¬ Fails FileTree.fileSystem t (.file "a.hex") .text (some path) := by
    rw [fails_iff]
    rintro (hnone | ⟨q, path', e, hq, hout, hwrite⟩)
    · exact hnone p hp
    · obtain rfl := Option.some.inj hout
      obtain rfl := hp.unique hq
      obtain ⟨after, hafter⟩ := h
      rw [htext] at hwrite
      cases hwrite.symm.trans (congrArg Prod.fst hafter)
  have hparse (args : List String) (path : String) :
      Command.parse args = .ok (.disassemble (.file "a.hex") .text (some path)) →
      (∃ after, t.write path listing = (.ok (), after)) →
      ∃ outcome after, result args = (outcome, after) ∧ outcome.exit = 0 ∧ outcome.stdout = "" ∧
        (∃ f, FileTree.fileSystem.Replaced t after path listing f) ∧
        ∀ found, FileTree.read after path = .ok found → found = listing := by
    intro hargs hwrite
    obtain ⟨outcome, after, hrun, -, h⟩ :=
      run_disassemble_all_or_nothing hargs FileTree.fileSystem t
    obtain ⟨q, hq, hexit, -, hwritten⟩ := h (hfine path hwrite)
    obtain rfl := hp.unique hq
    rw [htext] at hwritten
    obtain ⟨hstdout, hreplaced, hback⟩ := hwritten path rfl
    exact ⟨outcome, after, hrun, hexit, hstdout, hreplaced, hback⟩
  refine ⟨?_, ?_, ?_, ?_⟩
  · obtain ⟨outcome, after, hrun, hexit, hstdout, ⟨f, hf⟩, -⟩ :=
      hparse ["disassemble", "a.hex", "--out", "../work/./a.hex"] "../work/./a.hex" rfl ⟨_, rfl⟩
    obtain rfl := hf.led ["a.hex", "work"] ⟨rfl, image.toUTF8, rfl⟩
    have hother := hf.contents ["b.hex", "work"] (by decide)
    exact ⟨outcome, after, hrun, hexit, hstdout, hf.holds, hother⟩
  · obtain ⟨outcome, after, hrun, hexit, hstdout, ⟨f, hf⟩, hback⟩ :=
      hparse ["disassemble", "--out=/tmp/listing.txt", "--", "a.hex"] "/tmp/listing.txt" rfl
        ⟨_, rfl⟩
    exact ⟨outcome, after, hrun, hexit, hstdout, ⟨f, hf.leads, hf.holds⟩, hback⟩
  · have hargs : Command.parse ["disassemble", "--out=a.hex", "--format", "json", "b.hex"] =
        .ok (.disassemble (.file "b.hex") .json (some "a.hex")) := rfl
    obtain ⟨outcome, after, hrun, h, -⟩ :=
      run_disassemble_all_or_nothing hargs FileTree.fileSystem t
    obtain ⟨hexit, hstdout, rfl⟩ :=
      h (.assembling (hread "b.hex" broken rfl) (by decide) hassemble.2)
    exact ⟨outcome, hrun, hexit, hstdout⟩
  · have hargs : Command.parse ["disassemble", "a.hex", "--out", "locked"] =
        .ok (.disassemble (.file "a.hex") .text (some "locked")) := rfl
    obtain ⟨outcome, after, hrun, h, -⟩ :=
      run_disassemble_all_or_nothing hargs FileTree.fileSystem t
    obtain ⟨hexit, hstdout, rfl⟩ := h (.writing hp rfl (e := .permissionDenied) rfl)
    exact ⟨outcome, hrun, hexit, hstdout⟩

end PicBaseline.CommandLine
