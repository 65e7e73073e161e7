import Remapping.Failure
import Remapping.Settings.Basic
import Remapping.Toml.Document

/-!
# Loading settings

Settings are read from the sections `global` and `converter` of a settings file, the one that is
asked for or else the one of the toolkit; without a file the defaults hold. Unknown sections and
keys are passed over. A file that is asked for has to exist, and the sections have to be tables.
-/

namespace Remapping.Settings

/-- The entries of a section; a section that is missing has none. -/
def sectionOf (document : List (Text × Value)) (name : Text) :
    Except Failure (List (Text × Value)) :=
  match Value.find? document name with
  | none => .ok []
  | some (.table entries) => .ok entries
  | some _ => .error .wrongShape

/-- The settings that a document gives. -/
def ofDocument (document : List (Text × Value)) : Except Failure Settings := do
  let shared ← sectionOf document "global"
  let converter ← sectionOf document "converter"
  return { shared := ({} : SharedSettings).override shared,
           converter := ({} : ConverterSettings).override converter }

/-- The settings that the bytes of a settings file give. -/
def ofBytes (bytes : Bytes) : Except Failure Settings :=
  match Encoding.utf8.decode true bytes with
  | .error fault => .error (.undecodable fault)
  | .ok t =>
    match Toml.parse t with
    | none => .error .malformedConfiguration
    | some document => ofDocument document

/-- The settings file in the directory of the toolkit. -/
def homeFile (home : Location) : Path := Path.ofLocation (home ++ ["config.toml".toText])

/-- Loads the settings file at a path. If no path is given, the settings file of the toolkit is
loaded, or the defaults if there is none. -/
def load (files : Files) (home : Location) (path : Option Text) : Except Failure Settings :=
  let p := (path.map Path.ofText).getD (homeFile home)
  match files.pathExists p with
  | .error e => .error (.file e)
  | .ok false => if path.isSome then .error (.configurationMissing p.toText) else .ok {}
  | .ok true =>
    match files.read p with
    | .ok bytes => ofBytes bytes
    | .error fault => .error (.file { fault, path := p.toText })

/-- Gives the settings that were loaded before, unless a path asks for others. The second part
of the answer tells whether they are the ones loaded before. -/
def fetch (loaded : Option Settings) (files : Files) (home : Location) (path : Option Text) :
    Except Failure (Settings × Bool) :=
  match loaded, path with
  | some settings, none => .ok (settings, true)
  | _, path => (load files home path).map (·, false)

end Remapping.Settings
