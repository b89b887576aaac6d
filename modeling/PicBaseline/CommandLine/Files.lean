import PicBaseline.Text.Basic

/-!
# Command line — files

A run reads and writes files through a `FileAccess`, in whatever monad the files are: `IO` for those
of the system, a state monad for files that are a value.  Reading and writing may fail for any
reason.

A `FileTree` is such a value: files and directories by their places below a root, and the working
directory.  A path is walked step by step, from the root or from the working directory: every step
but the last must lead to a directory, and the last one names the file.  Names and paths are limited
in length.  Writing replaces the content of a file or adds a file to a directory, where the file or
the directory may be changed; otherwise it fails and changes nothing.
-/

namespace PicBaseline.CommandLine

/-- Why a file cannot be read or written. -/
inductive FileError where
  | notFound
  | notDirectory
  | isDirectory
  | nameTooLong
  | permissionDenied
  | notText
  | other (description : String)
  deriving DecidableEq

/-- The text of an error, as the system words it. -/
def FileError.message : FileError → String
  | notFound          => "No such file or directory (os error 2)"
  | notDirectory      => "Not a directory (os error 20)"
  | isDirectory       => "Is a directory (os error 21)"
  | nameTooLong       => "File name too long (os error 36)"
  | permissionDenied  => "Permission denied (os error 13)"
  | notText           => "stream did not contain valid UTF-8"
  | other description => description

/-! ### Access -/

/-- The text that bytes encode. -/
def textOf (content : ByteArray) : Except FileError String :=
  (String.fromUTF8? content).elim (.error .notText) .ok

/-- How a run reads and writes whole files, by their paths. -/
structure FileAccess (m : Type → Type) where
  read : String → m (Except FileError ByteArray)
  write : String → ByteArray → m (Except FileError Unit)

namespace FileAccess

/-- Access to files that are a state.  Reading has no effect on it, and writing gives the state
that follows, whether it fails or not. -/
def ofState {σ : Type} (read : σ → String → Except FileError ByteArray)
    (write : σ → String → ByteArray → Except FileError Unit × σ) : FileAccess (StateM σ) where
  read path := fun s => (read s path, s)
  write path content := fun s => write s path content

/-- Reads a file that is text. -/
def readText {m : Type → Type} [Monad m] (files : FileAccess m) (path : String) :
    m (Except FileError String) := do
  let content ← files.read path
  return content >>= textOf

end FileAccess

/-! ### Paths -/

/-- The most bytes of a name. -/
def maxNameBytes : Nat := 255

/-- The most bytes of a path. -/
def maxPathBytes : Nat := 4095

/-- A place in a tree: the names on the way from it up to the root, its own name first. -/
abbrev Place := List String

namespace Path

/-- The steps of a path; slashes in a row count as one. -/
def steps (path : String) : List String :=
  ((Text.fields '/' path.toList).filter (!·.isEmpty)).map String.ofList

/-- A path that starts with a slash is walked from the root. -/
def isAbsolute (path : String) : Bool :=
  path.toList.head? == some '/'

/-- A slash at the end asks for a directory. -/
def endsInSlash (path : String) : Bool :=
  path.toList.getLast? == some '/'

end Path

/-- What a path leads to. -/
inductive Landing where
  /-- A directory, by a path that names none of its entries. -/
  | directory
  /-- A place that may or may not be taken; `slashed` says that a slash follows its name. -/
  | entry (place : Place) (slashed : Bool)
  deriving DecidableEq

/-! ### Trees -/

/-- What a place is taken by. -/
inductive Node where
  | directory (writable : Bool)
  | file (readable writable : Bool) (content : ByteArray)

/-- Files and directories by their places, and the working directory. -/
structure FileTree where
  working : Place
  nodes : List (Place × Node)

namespace FileTree

/-- What is at a place. -/
def node? (t : FileTree) (place : Place) : Option Node :=
  t.nodes.lookup place

/-- The content of the file at a place, if there is a file. -/
def content? (t : FileTree) (place : Place) : Option ByteArray :=
  match t.node? place with
  | some (.file _ _ content) => some content
  | _                        => none

/-- Puts a node in a place, instead of what is there. -/
def put (t : FileTree) (place : Place) (node : Node) : FileTree :=
  { t with nodes := (place, node) :: t.nodes.filter (·.1 != place) }

/-- What is at a place, if its name is no longer than names may be. -/
def find (t : FileTree) (place : Place) : Except FileError (Option Node) :=
  if maxNameBytes < (place.headD "").utf8ByteSize then .error .nameTooLong
  else .ok (t.node? place)

/-- A step that must lead to a directory.  From the root, the step up stays there. -/
def enter (t : FileTree) (here : Place) (step : String) : Except FileError Place :=
  if step = "." then .ok here
  else if step = ".." then .ok here.tail
  else do
    match ← t.find (step :: here) with
    | some (.directory _) => return step :: here
    | some (.file ..)     => throw .notDirectory
    | none                => throw .notFound

/-- Where the walk of a path starts. -/
def start (t : FileTree) (path : String) : Place :=
  if Path.isAbsolute path then [] else t.working

/-- Walks a path. -/
def resolve (t : FileTree) (path : String) : Except FileError Landing :=
  if path.isEmpty then .error .notFound
  else if maxPathBytes < path.utf8ByteSize then .error .nameTooLong
  else match (Path.steps path).getLast? with
    | none      => .ok .directory
    | some last => do
        let here ← (Path.steps path).dropLast.foldlM t.enter (t.start path)
        if last = "." ∨ last = ".." then return .directory
        else return .entry (last :: here) (Path.endsInSlash path)

/-- The content of the file that a path leads to. -/
def read (t : FileTree) (path : String) : Except FileError ByteArray := do
  match ← t.resolve path with
  | .directory           => throw .isDirectory
  | .entry place slashed =>
      match ← t.find place with
      | none                            => throw .notFound
      | some (.directory _)             => throw .isDirectory
      | some (.file readable _ content) =>
          if slashed then throw .notDirectory
          else if readable then return content
          else throw .permissionDenied

/-- An entry may be added where the directory may be changed. -/
def mayAdd (t : FileTree) (place : Place) : Bool :=
  match t.node? place.tail with
  | some (.directory writable) => writable
  | _                          => false

/-- The tree after a file is written. -/
def written (t : FileTree) (path : String) (content : ByteArray) : Except FileError FileTree := do
  match ← t.resolve path with
  | .directory           => throw .isDirectory
  | .entry place slashed =>
      if slashed then throw .isDirectory
      else match ← t.find place with
        | some (.directory _)              => throw .isDirectory
        | some (.file readable writable _) =>
            if writable then return t.put place (.file readable writable content)
            else throw .permissionDenied
        | none =>
            if t.mayAdd place then return t.put place (.file true true content)
            else throw .permissionDenied

/-- Writes a file, or leaves the tree as it is. -/
def write (t : FileTree) (path : String) (content : ByteArray) :
    Except FileError Unit × FileTree :=
  match t.written path content with
  | .ok after => (.ok (), after)
  | .error e  => (.error e, t)

/-- Access to the files of a tree. -/
def access : FileAccess (StateM FileTree) :=
  .ofState read write

end FileTree

end PicBaseline.CommandLine
