import Remapping.Files.Tree
import Remapping.Text.Quoted

/-!
# Arguments of the command line

Arguments are read in three steps. `readArguments` tells options from paths, wherever they
stand. Then the first of the options that ask for the version or for help is answered. Last,
`request` checks the paths against the files, in the order in which the options were given.
-/

namespace Remapping.CommandLine

/-- An option without a value. -/
inductive Switch
  | json
  | verbose
  | quiet
  | version
  | help
  deriving DecidableEq

/-- An option with a path as its value. -/
inductive PathOption
  | config
  | report
  deriving DecidableEq

/-- A parameter that takes a path. -/
inductive Parameter
  | input
  | output
  | option (o : PathOption)
  deriving DecidableEq

/-- Any option. -/
inductive Flag
  | switch (s : Switch)
  | path (o : PathOption)
  deriving DecidableEq

/-- The option of a long name. -/
def longFlag? (name : Text) : Option Flag :=
  match name.toString? with
  | some "--json" => some (.switch .json)
  | some "--verbose" => some (.switch .verbose)
  | some "--quiet" => some (.switch .quiet)
  | some "--version" => some (.switch .version)
  | some "--help" => some (.switch .help)
  | some "--config" => some (.path .config)
  | some "--report" => some (.path .report)
  | _ => none

/-- The option of a letter. -/
def shortFlag? : CodePoint → Option Flag
  | .char 'v' => some (.switch .verbose)
  | .char 'q' => some (.switch .quiet)
  | .char 'c' => some (.path .config)
  | .char 'r' => some (.path .report)
  | _ => none

/-- What is wrong with a path. -/
inductive PathFault
  | missing
  | isDirectory
  deriving DecidableEq

/-- Why arguments cannot be used. -/
inductive UsageError
  | unknownOption (name : Text)
  | valueMissing (name : Text)
  | valueUnwanted (name : Text)
  | parameterMissing (p : Parameter)
  | badPath (p : Parameter) (path : Text) (fault : PathFault)
  | unexpected (arguments : List Text)
  deriving DecidableEq

/-- How a parameter is named in messages. -/
def Parameter.shown : Parameter → Text
  | input => "'INPUT'"
  | output => "'OUTPUT'"
  | option .config => "'--config' / '-c'"
  | option .report => "'--report' / '-r'"

namespace UsageError

/-- The sentence about an error. -/
def sentence : UsageError → Text
  | unknownOption name => "No such option " ++ Text.quoted name ++ "."
  | valueMissing name => "Option " ++ Text.quoted name ++ " requires an argument."
  | valueUnwanted name => "Option " ++ Text.quoted name ++ " does not take a value."
  | parameterMissing p => "Missing argument " ++ p.shown ++ "."
  | badPath p path fault =>
    "Invalid value for " ++ p.shown ++ ": File " ++ Text.quoted path ++
      match fault with
      | .missing => " does not exist."
      | .isDirectory => " is a directory."
  | unexpected arguments =>
    (if arguments.length = 1 then "Got unexpected extra argument ("
      else "Got unexpected extra arguments (") ++ List.intercalate [.char ' '] arguments ++ ")"

/-- Whether the message starts by telling how the program is used. -/
def showsUsage : UsageError → Bool
  | valueMissing _ | valueUnwanted _ => false
  | _ => true

end UsageError

/-- An option as it was given. -/
inductive Given
  | switch (s : Switch)
  | path (o : PathOption) (value : Text)

/-- Arguments told apart. -/
structure Arguments where
  given : List Given := []
  paths : List Text := []

/-- What one argument gives: the options in it, and the option at its end that still needs a
value, under the name it was given. -/
abbrev Reading := List Given × Option (PathOption × Text)

/-- Reads the letters of combined short options; what follows the letter of an option with a
value is that value. -/
def readLetters : Text → Except UsageError Reading
  | [] => .ok ([], none)
  | c :: rest =>
    match shortFlag? c with
    | none => .error (.unknownOption [.char '-', c])
    | some (.switch s) =>
      (readLetters rest).map fun (given, waiting) => (.switch s :: given, waiting)
    | some (.path o) =>
      if rest = [] then .ok ([], some (o, [.char '-', c])) else .ok ([.path o rest], none)

/-- Reads an argument that starts with a dash. A long option may have its value after an equals
sign. -/
def readOption (argument : Text) : Except UsageError Reading :=
  let name := argument.takeWhile (· != .char '=')
  let value? := if argument.contains '=' then some (argument.drop (name.length + 1)) else none
  match longFlag? name, value? with
  | some (.switch s), none => .ok ([.switch s], none)
  | some (.switch _), some _ => .error (.valueUnwanted name)
  | some (.path o), some value => .ok ([.path o value], none)
  | some (.path o), none => .ok ([], some (o, name))
  | none, _ =>
    if List.isPrefixOf "--" argument then .error (.unknownOption name)
    else readLetters argument.tail

/-- Whether an argument is an option; a dash alone is a path. -/
def isOption (argument : Text) : Bool :=
  argument.head? = some (.char '-') && argument != [.char '-']

/-- Tells options from paths; after two dashes all arguments are paths. -/
def readArguments : List Text → Except UsageError Arguments
  | [] => .ok {}
  | argument :: rest =>
    if argument = "--" then .ok { paths := rest }
    else if isOption argument then
      match readOption argument with
      | .error e => .error e
      | .ok (given, none) =>
        (readArguments rest).map fun a => { a with given := given ++ a.given }
      | .ok (given, some (o, name)) =>
        match rest with
        | [] => .error (.valueMissing name)
        | value :: rest =>
          (readArguments rest).map fun a => { a with given := given ++ .path o value :: a.given }
    else (readArguments rest).map fun a => { a with paths := argument :: a.paths }

namespace Arguments

/-- Whether a switch is given. -/
def has (a : Arguments) (s : Switch) : Bool :=
  a.given.any fun
    | .switch t => s = t
    | _ => false

/-- The value of an option; the last one given counts. -/
def value? (a : Arguments) (o : PathOption) : Option Text :=
  (a.given.reverse.findSome? fun
    | .path p value => if p = o then some value else none
    | _ => none)

/-- The options with a value, each once, in the order in which they were first given. -/
def pathOptions (a : Arguments) : List PathOption :=
  (a.given.filterMap fun
    | .path o _ => some o
    | _ => none).eraseDups

/-- The first switch that asks for the version or for help. -/
def asks? (a : Arguments) : Option Switch :=
  a.given.findSome? fun
    | .switch .version => some .version
    | .switch .help => some .help
    | _ => none

end Arguments

/-- What the program is asked to do. -/
structure Request where
  input : Text
  output : Text
  config : Option Text := none
  report : Option Text := none
  json : Bool := false
  verbose : Bool := false
  quiet : Bool := false

/-- Why there is no request: the arguments are wrong, or a path can be no path at all. -/
inductive Refusal
  | usage (e : UsageError)
  | invalidPath (e : FileError)
  deriving DecidableEq

/-- Checks the path of a parameter: a file must not be a directory, except the output, and has
to exist if it is read. -/
def checkPath (files : Files) (p : Parameter) (path : Text) : Except Refusal Unit :=
  match files.statText path with
  | .error .invalidName => .error (.invalidPath { fault := .invalidName, path })
  | .error _ =>
    if p = .input ∨ p = .option .config then .error (.usage (.badPath p path .missing)) else .ok ()
  | .ok .directory =>
    if p = .output then .ok () else .error (.usage (.badPath p path .isDirectory))
  | .ok (.file _) => .ok ()

/-- The path of a parameter that must be given. -/
def requiredPath (files : Files) (p : Parameter) : Option Text → Except Refusal Text
  | none => .error (.usage (.parameterMissing p))
  | some path => (checkPath files p path).map fun _ => path

/-- The request that arguments make. -/
def request (files : Files) (a : Arguments) : Except Refusal Request := do
  for o in a.pathOptions do
    checkPath files (.option o) ((a.value? o).getD [])
  let input ← requiredPath files .input a.paths.head?
  let output ← requiredPath files .output a.paths.tail.head?
  unless (a.paths.drop 2).isEmpty do throw (.usage (.unexpected (a.paths.drop 2)))
  return {
    input := (Path.ofText input).toText
    output := (Path.ofText output).toText
    config := a.value? .config
    report := a.value? .report
    json := a.has .json
    verbose := a.has .verbose
    quiet := a.has .quiet }

end Remapping.CommandLine
