import Remapping.Files.Path
import Remapping.Text.Quoted

/-!
# Files and directories

The file system as a value: what stands at each place, and the working directory. An operation
gives the changed file system or the fault that it met, in which case nothing has changed.
Read `node?_put` first: it says what putting something at a place does to every place.
-/

namespace Remapping

/-- What stands at a place. -/
inductive Node
  | file (contents : Bytes)
  | directory
  deriving DecidableEq

/-- Why an operation on files fails. -/
inductive FileFault
  | notFound
  | alreadyExists
  | notADirectory
  | isADirectory
  | nameTooLong
  /-- The path holds a NUL, or a surrogate that stands for no byte. -/
  | invalidName
  deriving DecidableEq

namespace FileFault

/-- The error number of a fault. -/
def number : FileFault → Nat
  | notFound => 2
  | alreadyExists => 17
  | notADirectory => 20
  | isADirectory => 21
  | invalidName => 22
  | nameTooLong => 36

/-- The words of a fault. -/
def words : FileFault → Text
  | notFound => "No such file or directory"
  | alreadyExists => "File exists"
  | notADirectory => "Not a directory"
  | isADirectory => "Is a directory"
  | nameTooLong => "File name too long"
  | invalidName => "Invalid argument"

end FileFault

/-- A fault with the path it was met at, and the second path of a renaming. -/
structure FileError where
  fault : FileFault
  path : Text
  target : Option Text := none
  deriving DecidableEq

/-- The message of a file error. -/
def FileError.message (e : FileError) : Text :=
  "[Errno " ++ Text.ofNat e.fault.number ++ "] " ++ e.fault.words ++ ": " ++ Text.quoted e.path ++
    match e.target with
    | some target => " -> " ++ Text.quoted target
    | none => []

/-- The file system. -/
structure Files where
  /-- What stands at each place; the root is always a directory and not listed. -/
  nodes : List (Location × Node) := []
  workingDirectory : Location := []

namespace Files

/-- What stands at a place. -/
def node? (f : Files) (place : Location) : Option Node :=
  if place = [] then some .directory else (f.nodes.find? (·.1 = place)).map (·.2)

/-- Puts a node at a place. -/
def put (f : Files) (place : Location) (node : Node) : Files :=
  { f with nodes := (place, node) :: f.nodes.filter (·.1 ≠ place) }

/-- Removes what stands at a place. -/
def remove (f : Files) (place : Location) : Files :=
  { f with nodes := f.nodes.filter (·.1 ≠ place) }

theorem find?_other {nodes : List (Location × Node)} {place other : Location}
    (different : other ≠ place) :
    nodes.find? (fun entry => !decide (entry.1 = place) && decide (entry.1 = other)) =
      nodes.find? (fun entry => decide (entry.1 = other)) := by
  congr 1
  funext entry
  by_cases same : entry.1 = other
  · simp [same, different]
  · simp [same]

/-- A put node stands at its place, and no other place changes. -/
theorem node?_put (f : Files) {place : Location} (node : Node) (other : Location)
    (below : place ≠ []) :
    (f.put place node).node? other = if other = place then some node else f.node? other := by
  by_cases same : other = place
  · subst same
    simp [node?, put, below]
  · by_cases root : other = []
    · simp [node?, root, Ne.symm below]
    · simp [node?, put, root, same, Ne.symm same, find?_other same]

/-- Follows names from a place, each through a directory; the last may name nothing yet. -/
def follow (f : Files) (place : Location) : List Text → Except FileFault Location
  | [] => .ok place
  | name :: names =>
    match f.node? place with
    | none => .error .notFound
    | some (.file _) => .error .notADirectory
    | some .directory =>
      if name = [] ∨ name = [.char '.'] then f.follow place names
      else if name = Path.up then f.follow place.dropLast names
      else if 255 < name.nameBytes.length then .error .nameTooLong
      else f.follow (place ++ [name]) names

/-- The place that names lead to from the root or the working directory. -/
def locateNames (f : Files) (absolute : Bool) (names : List Text) : Except FileFault Location :=
  if !names.all (·.all CodePoint.isNameable) then .error .invalidName
  else f.follow (if absolute then [] else f.workingDirectory) names

/-- The place of a path. -/
def locate (f : Files) (p : Path) : Except FileFault Location := f.locateNames p.absolute p.names

/-- What stands at a path. -/
def stat (f : Files) (p : Path) : Except FileFault Node := do
  match f.node? (← f.locate p) with
  | some node => return node
  | none => throw .notFound

/-- What stands at a path given as a text, where a slash or a dot at the end asks for a
directory. -/
def statText (f : Files) (t : Text) : Except FileFault Node := do
  if t = [] then throw .notFound
  match f.node? (← f.locateNames (t.head? = some (.char '/')) (t.splitOn (.char '/'))) with
  | some node => return node
  | none => throw .notFound

/-- A test of what stands at a path; a name that is too long is the only fault it reports. -/
def test (f : Files) (p : Path) (holds : Node → Bool) : Except FileError Bool :=
  match f.stat p with
  | .ok node => .ok (holds node)
  | .error .nameTooLong => .error { fault := .nameTooLong, path := p.toText }
  | .error _ => .ok false

/-- Whether something stands at a path. -/
def pathExists (f : Files) (p : Path) : Except FileError Bool := f.test p fun _ => true

/-- Whether a directory stands at a path. -/
def isDirectory (f : Files) (p : Path) : Except FileError Bool := f.test p (· = .directory)

/-- Reads the file at a path. -/
def read (f : Files) (p : Path) : Except FileFault Bytes := do
  match ← f.stat p with
  | .file contents => return contents
  | .directory => throw .isADirectory

/-- The place of a path where a file can be written, in place of one that stands there. -/
def writePlace (f : Files) (p : Path) : Except FileFault Location := do
  let place ← f.locate p
  if f.node? place = some .directory then throw .isADirectory
  return place

/-- Writes the file at a path, which need not exist before. -/
def write (f : Files) (p : Path) (contents : Bytes) : Except FileFault Files :=
  (f.writePlace p).map fun place => f.put place (.file contents)

/-- The place of a path where nothing stands yet. -/
def freshPlace (f : Files) (p : Path) : Except FileFault Location := do
  let place ← f.locate p
  if (f.node? place).isSome then throw .alreadyExists
  return place

/-- Gives the file at a place another path, in place of a file that stood there. -/
def rename (f : Files) (place : Location) (target : Path) : Except FileFault Files := do
  let new ← f.writePlace target
  match f.node? place with
  | none => throw .notFound
  | some node => return (f.remove place).put new node

/-- Makes a directory at a path where nothing stands. -/
def makeDirectory (f : Files) (p : Path) : Except FileFault Files :=
  (f.freshPlace p).map fun place => f.put place .directory

/-- Makes a directory unless there is one; `names` counts the names above it to be made. -/
def ensureDirectory (f : Files) (names : Nat) (p : Path) : Files × Except FileError Unit :=
  match f.makeDirectory p, names with
  | .ok made, _ => (made, .ok ())
  | .error .notFound, names + 1 =>
    match f.ensureDirectory names p.parent with
    | (above, .ok ()) => above.ensureDirectory 0 p
    | (above, .error e) => (above, .error e)
  | .error fault, _ =>
    match f.isDirectory p with
    | .ok true => (f, .ok ())
    | _ => (f, .error { fault, path := p.toText })

/-- Makes a directory and the directories above it, as far as there are none. -/
def makeDirectories (f : Files) (p : Path) : Files × Except FileError Unit :=
  f.ensureDirectory p.names.length p

/-- The places below the working directory, with what stands there. -/
def listing (f : Files) : List (Text × Node) :=
  f.nodes.filterMap fun (place, node) =>
    if f.workingDirectory.isPrefixOf place ∧ place ≠ f.workingDirectory then
      some (List.intercalate [.char '/'] (place.drop f.workingDirectory.length), node)
    else none

end Files
end Remapping
