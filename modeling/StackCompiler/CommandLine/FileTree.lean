/-!
# Files and paths

A tree of files as a run of the command sees it. A path is followed step by
step, from the working directory or from the root, and every step but the last
has to lead into a directory; the first step that does not decides what is wrong
with the path. Reading and writing differ only at the last step.

A directory is there if a file lies below it. The directories above the working
directory, and the root, are always there.
-/

namespace StackCompiler.CommandLine

/-- Where the steps to a place in the tree begin. -/
inductive Base where
  /-- The directory so many levels above the working directory; at no level it
  is the working directory. -/
  | ancestor (levels : Nat)
  | root
  deriving DecidableEq, Repr

/-- A place in the tree: names that lead down from a base. -/
structure Location where
  base : Base
  below : List String
  deriving DecidableEq, Repr

namespace Location

/-- The place of the given name in a directory. -/
def child (directory : Location) (name : String) : Location :=
  { directory with below := directory.below ++ [name] }

/-- The directory above a place. The root is above itself. -/
def parent : Location → Location
  | ⟨.ancestor levels, []⟩ => ⟨.ancestor (levels + 1), []⟩
  | ⟨.root, []⟩ => ⟨.root, []⟩
  | ⟨base, below⟩ => ⟨base, below.dropLast⟩

/-- Whether a place is another one or lies above it. -/
def contains (upper lower : Location) : Bool :=
  upper.base == lower.base && upper.below.isPrefixOf lower.below

end Location

/-- Why a path leads to no file that can be read or written. -/
inductive PathFault where
  | absent
  | notDirectory
  | directory
  | tooLong
  deriving DecidableEq, Repr

/-- The wording of a fault. -/
def PathFault.message : PathFault → String
  | .absent => "No such file or directory (os error 2)"
  | .notDirectory => "Not a directory (os error 20)"
  | .directory => "Is a directory (os error 21)"
  | .tooLong => "File name too long (os error 36)"

/-- The greatest number of bytes in the name of a file or directory. -/
def maxNameBytes : Nat := 255

/-- The greatest number of bytes in a path. -/
def maxPathBytes : Nat := 4095

/-- A path, split at its slashes. -/
structure Path where
  base : Base
  steps : List String
  /-- Whether a slash follows the last step. Such a path asks for a directory. -/
  slashed : Bool
  deriving DecidableEq, Repr

/-- The runs of other characters between the slashes of a text. -/
def Path.splitSteps (text : List Char) : List String :=
  let runs := text.splitBy fun left right => (left == '/') == (right == '/')
  (runs.filter (·.head? != some '/')).map String.ofList

/-- The path that a text describes. Slashes that follow each other count as one. -/
def Path.ofString (text : String) : Path where
  base := if text.toList.head? == some '/' then .root else .ancestor 0
  steps := Path.splitSteps text.toList
  slashed := text.toList.getLast? == some '/'

/-- What is found at a place. -/
inductive Entry where
  | file (content : ByteArray)
  | directory
  | nothing

/-- Files, each at its own place. -/
structure FileTree where
  files : List (Location × ByteArray)

namespace FileTree

/-- The working directory with files of the given names. -/
def ofFiles (files : List (String × ByteArray)) : FileTree where
  files := files.map fun file => (⟨.ancestor 0, (Path.ofString file.1).steps⟩, file.2)

/-- What is found at a place. -/
def entry (tree : FileTree) (location : Location) : Entry :=
  if location.below.isEmpty then .directory
  else
    match tree.files.lookup location with
    | some content => .file content
    | none =>
      if tree.files.any fun file => location.contains file.1 then .directory
      else .nothing

/-- What is found under a name, which must not be too long. -/
def find (tree : FileTree) (location : Location) (name : String) :
    Except PathFault Entry :=
  if name.utf8ByteSize > maxNameBytes then .error .tooLong
  else .ok (tree.entry (location.child name))

/-- Takes a step into a directory. -/
def enter (tree : FileTree) (location : Location) (step : String) :
    Except PathFault Location :=
  if step == "." then .ok location
  else if step == ".." then .ok location.parent
  else do
    match ← tree.find location step with
    | .directory => .ok (location.child step)
    | .file _ => .error .notDirectory
    | .nothing => .error .absent

/-- Follows a path up to its last step. The answer is a directory and a name in it. -/
def follow (tree : FileTree) (path : Path) : Except PathFault (Location × String) := do
  match path.steps.getLast? with
  | none => .error .directory
  | some last =>
    let directory ← path.steps.dropLast.foldlM tree.enter ⟨path.base, []⟩
    if last == "." || last == ".." then .error .directory else .ok (directory, last)

/-- The path that a text describes, which must not be too long. -/
def path? (text : String) : Except PathFault Path :=
  if text.utf8ByteSize > maxPathBytes then .error .tooLong else .ok (Path.ofString text)

/-- Reads a file. -/
def read (tree : FileTree) (text : String) : Except PathFault ByteArray := do
  let path ← path? text
  let (directory, name) ← tree.follow path
  match ← tree.find directory name with
  | .file content => if path.slashed then .error .notDirectory else .ok content
  | .directory => .error .directory
  | .nothing => .error .absent

/-- Gives the file at a place a new content. -/
def store (tree : FileTree) (location : Location) (content : ByteArray) : FileTree where
  files := (location, content) :: tree.files.filter fun file => file.1 != location

/-- Writes a file. It is created if it is not there. A slash behind its name is
wrong in any case. -/
def write (tree : FileTree) (text : String) (content : ByteArray) :
    Except PathFault FileTree := do
  let path ← path? text
  let (directory, name) ← tree.follow path
  if path.slashed then .error .directory
  else
    match ← tree.find directory name with
    | .directory => .error .directory
    | .file _ | .nothing => .ok (tree.store (directory.child name) content)

end FileTree

end StackCompiler.CommandLine
