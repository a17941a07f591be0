import Schemata.Text.Split

/-!
# Disks

What a program does with files, and files as the state of a program: a tree of directories without
links, of which only what lies below the working directory is listed.
-/
namespace Schemata

/-- Why a file cannot be read or written. -/
inductive FileFault
  | notFound
  | notDirectory
  | isDirectory
  /-- The bytes are no UTF-8. -/
  | notText
  /-- Any other reason, in the words of the system. -/
  | other (reason : String)
deriving DecidableEq, Repr

def FileFault.message : FileFault → String
  | notFound => "No such file or directory (os error 2)"
  | notDirectory => "Not a directory (os error 20)"
  | isDirectory => "Is a directory (os error 21)"
  | notText => "stream did not contain valid UTF-8"
  | other reason => reason

structure Disk (m : Type → Type) where
  hasPath : String → m Bool
  read : String → m (Except FileFault String)
  write : String → String → m (Except FileFault Unit)

/-! ### Paths -/

namespace Path
open Text

/-- A path is a row of names with slashes between them. -/
def pieces (path : String) : List String := (path.toList.splitOn '/').map String.ofList

/-- The last name of a path, unless it leads up. Empty pieces and single dots say nothing. -/
def fileName? (path : String) : Option String := do
  let name ← ((pieces path).filter fun s => s != "" && s != ".").getLast?
  if name = ".." then none else some name

/-- What follows the last dot of the file name. A dot that the name begins with does not count if it
is the only one. -/
def extension? (path : String) : Option String := do
  let name ← fileName? path
  match cut '.' name.toList.reverse with
  | (_, none) | (_, some []) => none
  | (ending, some _) => some (String.ofList ending.reverse)

end Path

/-! ### Files around a working directory -/

inductive Entry
  | text (content : String)
  /-- A file whose bytes are no UTF-8. -/
  | bytes
  | directory
deriving DecidableEq, Repr

/-- Where a path leads: each place of the tree is one spot. -/
inductive Spot
  /-- Below the working directory, by names with the innermost first. -/
  | inside (names : List String)
  /-- Anywhere else, by the names from the root, with the innermost first. -/
  | outside (names : List String)
deriving DecidableEq, Repr

structure Files where
  /-- The names that lead from the root to the working directory, the innermost first. -/
  here : List String := ["home"]
  /-- What is known by its spot; of two entries for one spot the first counts. -/
  entries : List (Spot × Entry) := []
deriving DecidableEq, Repr

namespace Files

/-- The names that lead from the root to a spot, the innermost first. -/
def names (files : Files) : Spot → List String
  | .inside names => names ++ files.here
  | .outside names => names

/-- The spot to which names lead from the root. -/
def spot (files : Files) (names : List String) : Spot :=
  if files.here.isSuffixOf names then .inside (names.take (names.length - files.here.length))
  else .outside names

def child (files : Files) (name : String) (spot : Spot) : Spot :=
  files.spot (name :: files.names spot)

/-- The directory above a spot; above the root it is the root again. -/
def parent (files : Files) (spot : Spot) : Spot := files.spot (files.names spot).tail

def step (files : Files) (name : String) (spot : Spot) : Spot :=
  if name = "" || name = "." then spot
  else if name = ".." then files.parent spot
  else files.child name spot

/-- The working directory and those above it are always there. -/
def entry? (files : Files) (spot : Spot) : Option Entry :=
  if (files.names spot).isSuffixOf files.here then some .directory
  else files.entries.lookup spot

/-- Is there a directory? -/
def requireDirectory (files : Files) (spot : Spot) : Except FileFault Unit :=
  match files.entry? spot with
  | some .directory => .ok ()
  | some _ => .error .notDirectory
  | none => .error .notFound

/-- Follows the pieces of a path; each of them must stand in a directory. -/
def walk (files : Files) (spot : Spot) : List String → Except FileFault Spot
  | [] => .ok spot
  | name :: rest => do
    files.requireDirectory spot
    files.walk (files.step name spot) rest

/-- Where a path starts, and the pieces that are left of it. -/
def start (files : Files) (path : String) : Spot × List String :=
  match Path.pieces path with
  | "" :: rest => (files.spot [], rest)
  | pieces => (.inside [], pieces)

/-- The spot of a path that is not empty. -/
def locate (files : Files) (path : String) : Except FileFault Spot :=
  if path.isEmpty then .error .notFound
  else
    let (spot, pieces) := files.start path
    files.walk spot pieces

def hasPath (files : Files) (path : String) : Bool :=
  match files.locate path with
  | .ok spot => (files.entry? spot).isSome
  | .error _ => false

def read (files : Files) (path : String) : Except FileFault String := do
  match files.entry? (← files.locate path) with
  | some (.text content) => .ok content
  | some .bytes => .error .notText
  | some .directory => .error .isDirectory
  | none => .error .notFound

/-- The spot at which a path names a file, be it there or not. -/
def target (files : Files) (path : String) : Except FileFault Spot := do
  if path.isEmpty then .error .notFound
  else
    let (spot, pieces) := files.start path
    let names := (pieces.reverse.dropWhile (· == "")).reverse
    match names.getLast? with
    | none => .error .isDirectory
    | some name => do
      let parent ← files.walk spot names.dropLast
      files.requireDirectory parent
      if names.length < pieces.length || name = "." || name = ".." then .error .isDirectory
      else .ok (files.child name parent)

/-- Stores a text; on a fault nothing changes. -/
def write (files : Files) (path content : String) : Except FileFault Files := do
  let spot ← files.target path
  match files.entry? spot with
  | some .directory => .error .isDirectory
  | _ =>
    .ok { files with entries := (spot, .text content) :: files.entries.filter (·.1 != spot) }

/-- Files as the state of a program. -/
def disk : Disk (StateM Files) where
  hasPath path := return (← get).hasPath path
  read path := return (← get).read path
  write path content := do
    match (← get).write path content with
    | .error fault => return .error fault
    | .ok files =>
      set files
      return .ok ()

end Files
end Schemata
