import Remapping.Codec.Standard
import Remapping.CommandLine.Run
import Remapping.Console.Render
import Std.Time.DateTime.Timestamp

/-!
# The program

The outer layer of the command line: it takes a picture of the files that a run can touch, lets
the run work on the picture, and brings the changes back to the disk. A changed file is written
beside its place and then renamed, and a file that has only grown is appended to.
-/

namespace Remapping.Disk

open scoped Codecs

/-- The string of a text, with a replacement character for every surrogate. -/
def stringOf (t : Text) : String := String.ofList (t.map fun c => c.toChar?.getD '\ufffd')

/-- The place of a path on the disk, given by its names from the root. -/
def pathTo (workingDirectory : Location) (t : Text) : Location :=
  (Path.ofText t).place workingDirectory

/-- The places that a path leads through, and the place it leads to. -/
def placesOf (workingDirectory : Location) (t : Text) : List Location :=
  let p := Path.ofText t
  (List.range (p.names.length + 1)).map fun n =>
    { p with names := p.names.take n : Path }.place workingDirectory

/-- The absolute text of a place. -/
def textOf (place : Location) : String := stringOf (Path.ofLocation place).toText

/-- What stands at a place on the disk. -/
def nodeAt (place : Location) : IO (Option Node) := do
  let path := (← IO.currentDir) / textOf place
  if ← path.isDir then return some .directory
  if ← path.pathExists then return some (.file (← IO.FS.readBinFile path).toList)
  return none

/-- Adds what stands at places to a picture. -/
def addPlaces (files : Files) (places : List Location) : IO Files :=
  places.foldlM (fun files place => do
    if place = [] || (files.node? place).isSome then return files
    match ← nodeAt place with
    | some node => return files.put place node
    | none => return files) files

/-- Adds the files beside the output whose names start like those of its temporary files. -/
def addTemporary (files : Files) (output : Text) : IO Files := do
  let place := pathTo files.workingDirectory output
  let directory := (← IO.currentDir) / textOf place.dropLast
  if !(← directory.isDir) then return files
  let start := .char '.' :: place.getLastD [] ++ [.char '.']
  let names := (← directory.readDir).toList.map fun entry => entry.fileName.toText
  addPlaces files ((names.filter (start.isPrefixOf ·)).map fun name => place.dropLast ++ [name])

/-- The files of a log: the one that grows and those set aside. -/
def logFiles (s : Settings) : List Text :=
  match s.shared.logFile with
  | .text t => t :: (List.range 5).map fun n => t ++ .char '.' :: Text.ofNat (n + 1)
  | _ => []

/-- The picture of all files that a run of the toolkit at `home` with these arguments can touch. -/
def picture (home : Location) (arguments : List Text) : IO Files := do
  let workingDirectory := (Path.ofText (← IO.currentDir).toString.toText).names
  let above := (List.range (workingDirectory.length + 1)).map workingDirectory.take
  let files ← addPlaces { workingDirectory } above
  match CommandLine.readArguments arguments with
  | .error _ => return files
  | .ok a =>
    let values := a.given.filterMap fun
      | .path _ value => some value
      | .switch _ => none
    let asked := Path.toText (Settings.homeFile home) :: a.paths ++ values
    let files ← addPlaces files (asked.flatMap (placesOf workingDirectory))
    let files ← (a.paths.drop 1).foldlM addTemporary files
    match Settings.load files home (a.value? .config) with
    | .ok s => addPlaces files ((logFiles s).flatMap (placesOf workingDirectory))
    | .error _ => return files

/-- Brings one changed node to the disk. -/
def bringBack (place : Location) (before : Option Node) (after : Node) : IO Unit := do
  let path := (← IO.currentDir) / textOf place
  match before, after with
  | _, .directory => IO.FS.createDirAll path
  | some (.file old), .file new =>
    if old.isPrefixOf new then
      IO.FS.withFile path .append fun handle => handle.write ⟨(new.drop old.length).toArray⟩
    else replace path new
  | _, .file new => replace path new
where
  replace path (new : Bytes) : IO Unit := do
    let part := path.toString ++ ".part"
    IO.FS.writeBinFile part ⟨new.toArray⟩
    IO.FS.rename part path

/-- Brings the changes of a picture to the disk: what was removed, then directories, then
files. -/
def commit (before after : Files) : IO Unit := do
  for (place, _) in before.nodes do
    if (after.node? place).isNone then IO.FS.removeFile ((← IO.currentDir) / textOf place)
  let changed := after.nodes.filter fun (place, node) => before.node? place ≠ some node
  let (directories, files) := changed.partition (·.2 = .directory)
  for (place, node) in directories ++ files do bringBack place (before.node? place) node

/-- The present moment. -/
def now : IO Moment := do
  let nanoseconds := (← Std.Time.Timestamp.now).toNanosecondsSinceUnixEpoch.val
  return { microseconds := nanoseconds.fdiv 1000 }

/-- Runs the command line on the disk and gives the outcome. The clock is read again after the
conversion. The toolkit stands where the program does. -/
def run (arguments : List Text) : IO CommandLine.Outcome := do
  let home := (Path.ofText (← IO.appDir).toString.toText).names
  let before ← picture home arguments
  let start ← IO.monoNanosNow
  let outcome ← match CommandLine.start before home (← now) arguments with
    | .ended o => pure o
    | .converted r report => do
      let elapsed := (← IO.monoNanosNow) - start
      pure (r.finish report (elapsed / 1000))
  commit before outcome.files
  return outcome

end Remapping.Disk

open Remapping in
/-- Runs the command line, shows what it says and gives its exit status. -/
def main (arguments : List String) : IO UInt32 := do
  let outcome ← Disk.run (arguments.map String.toText)
  match outcome.shown with
  | .items items => IO.print (Disk.stringOf (Console.render items))
  | .text t => IO.print (Disk.stringOf t)
  IO.eprint (Disk.stringOf outcome.complaint)
  if let some failure := outcome.failure then
    IO.eprintln ("Error: " ++ Disk.stringOf failure.message)
  return UInt32.ofNat outcome.status
