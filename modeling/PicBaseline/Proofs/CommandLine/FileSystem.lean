import PicBaseline.CommandLine.Files
import PicBaseline.Proofs.Prelude

/-!
# Proofs — file systems

What runs rely on is little: reading gives the content of the file that the path leads to, and
writing replaces the whole content of one file, or fails and changes nothing.  A `FileSystem` is
anything that keeps to this.  Its files are not its paths: several paths may lead to one file, and
which file a path leads to is for the file system to say.  Reading and writing may fail where they
like, also at a file that is there.

* `FileSystem.replaced_of_write`: what a write has done that did not fail.
* `FileTree.fileSystem`: a tree is a file system.  A write takes no directory away and adds none, so
  every path leads to where it led before (`FileTree.resolve_eq_ok_congr`).
-/

namespace PicBaseline.CommandLine

/-- The bytes of a text encode it. -/
theorem textOf_toUTF8 (text : String) : textOf text.toUTF8 = .ok text := by
  have hvalid : text.toUTF8.IsValidUTF8 := text.isValidUTF8
  rw [textOf, String.fromUTF8?, dif_pos hvalid]
  rfl

/-- Files that are read and written as a whole.  `write` gives the state that follows, whether it
fails or not. -/
structure FileSystem where
  /-- All that is stored. -/
  State : Type
  /-- The files there are and may come to be. -/
  File : Type
  /-- The content of a file, if it is there. -/
  content? : State → File → Option ByteArray
  /-- The path leads to the file. -/
  Leads : State → String → File → Prop
  read : State → String → Except FileError ByteArray
  write : State → String → ByteArray → Except FileError Unit × State
  leads_unique {s : State} {path : String} {f g : File} :
    Leads s path f → Leads s path g → f = g
  /-- What is read is the content of the file. -/
  of_read {s : State} {path : String} {content : ByteArray} :
    read s path = .ok content → ∃ f, Leads s path f ∧ content? s f = some content
  /-- A write that does not fail replaces one content: that of the file which the path then leads
  to.  Any other file has its content, and is found by the paths it was found by. -/
  of_write {s after : State} {path : String} {content : ByteArray} :
    write s path content = (.ok (), after) →
      ∃ f, Leads after path f ∧ content? after f = some content ∧
        ∀ g, g ≠ f → content? after g = content? s g ∧
          ∀ other, Leads after other g ↔ Leads s other g
  /-- A write that fails changes nothing. -/
  of_write_error {s after : State} {path : String} {content : ByteArray} {e : FileError} :
    write s path content = (.error e, after) → after = s

namespace FileSystem

/-- Access to the files of a file system. -/
def access (fs : FileSystem) : FileAccess (StateM fs.State) :=
  .ofState fs.read fs.write

variable {fs : FileSystem} {s after : fs.State} {path : String} {content : ByteArray}

/-- What has happened between two states: the file `f` has got the content.  The path leads to it,
and led to no other file before.  Every other file has the content and the paths that it had. -/
structure Replaced (fs : FileSystem) (s after : fs.State) (path : String) (content : ByteArray)
    (f : fs.File) : Prop where
  leads : fs.Leads after path f
  holds : fs.content? after f = some content
  led : ∀ g, fs.Leads s path g → g = f
  contents : ∀ g, g ≠ f → fs.content? after g = fs.content? s g
  paths : ∀ g, g ≠ f → ∀ other, fs.Leads after other g ↔ fs.Leads s other g

/-- **A write replaces the content of one file.** -/
theorem replaced_of_write (h : fs.write s path content = (.ok (), after)) :
    ∃ f, fs.Replaced s after path content f := by
  obtain ⟨f, hleads, hholds, hothers⟩ := fs.of_write h
  refine ⟨f, hleads, hholds, ?_, fun g hg => (hothers g hg).1, fun g hg => (hothers g hg).2⟩
  intro g hled
  by_contra hg
  -- another file would still be found by the path, which now leads to `f`
  have hstill : fs.Leads after path g := ((hothers g hg).2 path).mpr hled
  exact hg (fs.leads_unique hstill hleads)

/-- Whoever can read the file afterwards reads what was written. -/
theorem Replaced.read_eq {f : fs.File} (h : fs.Replaced s after path content f) {found : ByteArray}
    (hread : fs.read after path = .ok found) : found = content := by
  obtain ⟨g, hleads, hholds⟩ := fs.of_read hread
  obtain rfl := fs.leads_unique h.leads hleads
  exact Option.some.inj (hholds.symm.trans h.holds)

end FileSystem

/-! ### Trees: places -/

namespace FileTree

variable {t t' after : FileTree} {place other : Place} {path : String} {content : ByteArray}

theorem node?_put_self (t : FileTree) (place : Place) (node : Node) :
    (t.put place node).node? place = some node :=
  List.lookup_cons_self

theorem node?_put_of_ne (t : FileTree) (h : other ≠ place) (node : Node) :
    (t.put place node).node? other = t.node? other := by
  have hrest (nodes : List (Place × Node)) :
      (nodes.filter (·.1 != place)).lookup other = nodes.lookup other := by
    induction nodes with
    | nil => rfl
    | cons entry nodes ih =>
        obtain ⟨key, old⟩ := entry
        by_cases hkey : key = place
        · subst hkey
          have hskip : (other == key) = false := beq_eq_false_iff_ne.mpr h
          rw [List.filter_cons_of_neg (by simp), ih, List.lookup_cons, hskip]
        · rw [List.filter_cons_of_pos (by simpa using hkey), List.lookup_cons, List.lookup_cons, ih]
  have hskip : (other == place) = false := beq_eq_false_iff_ne.mpr h
  rw [node?, put, List.lookup_cons, hskip]
  exact hrest t.nodes

/-- A place has content if a file is there, readable or not. -/
theorem content?_eq_some : t.content? place = some content ↔
    ∃ readable writable, t.node? place = some (.file readable writable content) := by
  rw [content?]
  rcases t.node? place with _ | (writable | ⟨readable, writable, old⟩) <;> simp

/-- A name that fits is looked up. -/
theorem find_eq_ok {found : Option Node} :
    t.find place = .ok found ↔
      (place.headD "").utf8ByteSize ≤ maxNameBytes ∧ t.node? place = found := by
  rw [find]
  by_cases hlong : maxNameBytes < (place.headD "").utf8ByteSize
  · rw [if_pos hlong]
    exact iff_of_false (by simp) fun h => Nat.not_lt.mpr h.1 hlong
  · rw [if_neg hlong, Except.ok.injEq]
    exact (and_iff_right (Nat.not_lt.mp hlong)).symm

/-! ### Trees: paths -/

/-- There is a directory at the place. -/
def IsDirectory (t : FileTree) (place : Place) : Prop :=
  ∃ writable, t.node? place = some (.directory writable)

/-- The two trees have the same directories and the same working directory. -/
structure SameDirectories (t t' : FileTree) : Prop where
  working : t'.working = t.working
  directories : ∀ place, t'.IsDirectory place ↔ t.IsDirectory place

/-- A step stays, goes up or goes down to a directory. -/
theorem enter_eq_ok {here next : Place} {step : String} :
    t.enter here step = .ok next ↔
      step = "." ∧ next = here ∨ step = ".." ∧ next = here.tail ∨
        (step ≠ "." ∧ step ≠ ".." ∧ step.utf8ByteSize ≤ maxNameBytes) ∧
          t.IsDirectory (step :: here) ∧ next = step :: here := by
  rw [enter]
  by_cases hdot : step = "."
  · simp [hdot, eq_comm]
  by_cases hup : step = ".."
  · simp [hup, eq_comm]
  rw [if_neg hdot, if_neg hup]
  constructor
  · intro h
    obtain ⟨found, hfound, h⟩ := bind_returns.mp h
    obtain ⟨hname, hnode⟩ := find_eq_ok.mp hfound
    rcases found with _ | (writable | ⟨readable, writable, content⟩)
    · cases h
    · cases h
      exact Or.inr (Or.inr ⟨⟨hdot, hup, hname⟩, ⟨writable, hnode⟩, rfl⟩)
    · cases h
  · rintro (⟨h, -⟩ | ⟨h, -⟩ | ⟨⟨-, -, hname⟩, ⟨writable, hnode⟩, rfl⟩)
    · exact absurd h hdot
    · exact absurd h hup
    · exact bind_returns.mpr ⟨_, find_eq_ok.mpr ⟨hname, hnode⟩, rfl⟩

/-- A walk depends on the directories only. -/
theorem walk_eq_ok_congr (h : t.SameDirectories t') {steps : List String} {here next : Place} :
    steps.foldlM t'.enter here = .ok next ↔ steps.foldlM t.enter here = .ok next := by
  induction steps generalizing here with
  | nil => rfl
  | cons step rest ih =>
      rw [List.foldlM_cons, List.foldlM_cons, bind_returns, bind_returns]
      simp only [enter_eq_ok, h.directories, ih]

/-- **A path leads where it led**, as long as the directories are the same. -/
theorem resolve_eq_ok_congr (h : t.SameDirectories t') {landing : Landing} :
    t'.resolve path = .ok landing ↔ t.resolve path = .ok landing := by
  have hstart : t'.start path = t.start path := by
    rw [start, start, h.working]
  -- The checks in front of the walk look at the path alone.
  rw [resolve, resolve]
  by_cases hempty : path.isEmpty
  · rw [if_pos hempty, if_pos hempty]
  by_cases hlong : maxPathBytes < path.utf8ByteSize
  · rw [if_neg hempty, if_neg hempty, if_pos hlong, if_pos hlong]
  rw [if_neg hempty, if_neg hempty, if_neg hlong, if_neg hlong]
  cases (Path.steps path).getLast? with
  | none => rfl
  | some last => simp only [bind_returns, hstart, walk_eq_ok_congr h]

/-- A file in a place where there was no directory makes no difference to directories. -/
theorem sameDirectories_put (h : ¬ t.IsDirectory place) (readable writable : Bool)
    (content : ByteArray) : t.SameDirectories (t.put place (.file readable writable content)) := by
  refine ⟨rfl, fun other => ?_⟩
  by_cases hother : other = place
  · subst hother
    refine iff_of_false ?_ h
    rintro ⟨_, hnode⟩
    rw [node?_put_self] at hnode
    cases hnode
  · rw [IsDirectory, IsDirectory, node?_put_of_ne t hother]

/-! ### Trees: reading and writing -/

/-- The path leads to a file at the place. -/
def Leads (t : FileTree) (path : String) (place : Place) : Prop :=
  t.resolve path = .ok (.entry place false) ∧ ∃ content, t.content? place = some content

/-- What is read is the content of the place that the path leads to. -/
theorem of_read (h : t.read path = .ok content) :
    ∃ place, t.Leads path place ∧ t.content? place = some content := by
  obtain ⟨landing, hlanding, h⟩ := bind_returns.mp h
  rcases landing with _ | ⟨place, slashed⟩
  · cases h
  obtain ⟨found, hfound, h⟩ := bind_returns.mp h
  obtain ⟨-, hnode⟩ := find_eq_ok.mp hfound
  rcases found with _ | (writable | ⟨readable, writable, old⟩)
  · cases h
  · cases h
  · rcases slashed with _ | _ <;> rcases readable with _ | _ <;> cases h
    have hcontent := content?_eq_some.mpr ⟨_, _, hnode⟩
    exact ⟨place, ⟨hlanding, content, hcontent⟩, hcontent⟩

/-- A write puts a file in the place that the path leads to, where there is no directory. -/
theorem of_written (h : t.written path content = .ok after) :
    ∃ place readable, t.resolve path = .ok (.entry place false) ∧ ¬ t.IsDirectory place ∧
      after = t.put place (.file readable true content) := by
  obtain ⟨landing, hlanding, h⟩ := bind_returns.mp h
  rcases landing with _ | ⟨place, _ | _⟩
  · cases h
  · obtain ⟨found, hfound, h⟩ := bind_returns.mp h
    obtain ⟨-, hnode⟩ := find_eq_ok.mp hfound
    rcases found with _ | (writable | ⟨readable, writable, old⟩)
    · rcases hadd : t.mayAdd place with _ | _ <;> simp only [hadd] at h <;> cases h
      exact ⟨place, true, hlanding, by simp [IsDirectory, hnode], rfl⟩
    · cases h
    · rcases writable with _ | _ <;> cases h
      exact ⟨place, readable, hlanding, by simp [IsDirectory, hnode], rfl⟩
  · cases h

theorem write_eq_ok :
    t.write path content = (.ok (), after) ↔ t.written path content = .ok after := by
  rw [write]
  cases t.written path content <;> simp

/-- **A write that succeeds** leaves the new content where its path leads; no other place changes,
and neither do the paths to one. -/
theorem of_write (h : t.write path content = (.ok (), after)) :
    ∃ place, after.Leads path place ∧ after.content? place = some content ∧
      ∀ other, other ≠ place → after.content? other = t.content? other ∧
        ∀ path', after.Leads path' other ↔ t.Leads path' other := by
  obtain ⟨place, readable, hresolve, hplace, rfl⟩ := of_written (write_eq_ok.mp h)
  have hsame := sameDirectories_put hplace readable true content
  have hholds : (t.put place (.file readable true content)).content? place = some content :=
    content?_eq_some.mpr ⟨readable, true, node?_put_self t place _⟩
  refine ⟨place, ⟨(resolve_eq_ok_congr hsame).mpr hresolve, content, hholds⟩, hholds, ?_⟩
  intro other hother
  have hcontent : (t.put place (.file readable true content)).content? other =
      t.content? other := by
    rw [content?, content?, node?_put_of_ne t hother]
  refine ⟨hcontent, fun path' => ?_⟩
  rw [Leads, Leads, resolve_eq_ok_congr hsame, hcontent]

/-- A write that fails changes nothing. -/
theorem of_write_error {e : FileError} (h : t.write path content = (.error e, after)) :
    after = t := by
  rw [write] at h
  rcases hwritten : t.written path content with _ | _ <;> rw [hwritten] at h <;> cases h
  rfl

/-- **A tree is a file system**, with its places as the files. -/
@[reducible] def fileSystem : FileSystem where
  State := FileTree
  File := Place
  content? := content?
  Leads := Leads
  read := read
  write := write
  leads_unique := by
    rintro t path place other ⟨hplace, -⟩ ⟨hother, -⟩
    cases hplace.symm.trans hother
    rfl
  of_read := of_read
  of_write := of_write
  of_write_error := of_write_error

end FileTree

end PicBaseline.CommandLine
