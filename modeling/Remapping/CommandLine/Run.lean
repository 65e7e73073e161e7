import Remapping.CommandLine.Words
import Remapping.Console.Item
import Remapping.Conversion.Stages
import Remapping.Report.Display
import Remapping.Report.Document
import Remapping.Settings.Load

/-!
# Running the command line

A run reads its arguments, loads the settings, opens the log, converts the input, and shows or
saves the report. `start` goes as far as the conversion and `finish` does the rest, so that the
caller can measure the time in between; `run` does both. A run that is over has an exit status:
0 for a conversion, 1 for a failure, 2 for arguments that cannot be used. How the items of the
console are rendered is left to whoever shows them, and showing them is taken to succeed; JSON is
printed in UTF-8, which has no bytes for a surrogate.
-/

namespace Remapping.CommandLine

variable [Codecs]

/-- What a run shows. -/
inductive Shown
  /-- Items on the console. -/
  | items (items : List Console.Item)
  /-- A text as it is. -/
  | text (t : Text)

/-- How a run ended. -/
structure Outcome where
  status : Nat
  shown : Shown := .items []
  /-- What was said about arguments that cannot be used. -/
  complaint : Text := []
  /-- The failure that no message covers. -/
  failure : Option Failure := none
  files : Files

/-- A run between its stages: the request, the settings, the session, and the items that are on
the console. -/
structure Run where
  request : Request
  settings : Settings
  session : Session
  items : List Console.Item := []

namespace Run

/-- Whether the console stays empty. -/
def isSilent (r : Run) : Bool := r.request.quiet || r.request.json

/-- Puts items on the console. -/
def put (r : Run) (items : List Console.Item) : Run := { r with items := r.items ++ items }

/-- What is on the console. -/
def console (r : Run) : List Console.Item := if r.isSilent then [] else r.items

/-- Ends a run with an exit status. -/
def exit (r : Run) (status : Nat) : Outcome :=
  { status, shown := .items r.console, files := r.session.files }

/-- Ends a run with a failure that no message covers. -/
def abort (r : Run) (failure : Failure) : Outcome :=
  { r.exit 1 with failure := some failure }

/-- Ends a run with a message about an error. -/
def fail (r : Run) (message : Text) : Outcome := (r.put [.message .error message]).exit 1

end Run

/-- The level of the log: a silent run records errors alone, a verbose one everything. -/
def logLevel (q : Request) (s : SharedSettings) : Except Failure Text :=
  if q.quiet || q.json then .ok "ERROR"
  else if q.verbose || s.debug.isTruthy then .ok "DEBUG"
  else match s.logLevel with
    | .text level => .ok level
    | _ => .error .wrongShape

/-- Opens the log that the settings ask for. -/
def openLog (files : Files) (s : SharedSettings) (level : Text) : Files × Except Failure Log :=
  let log : Log := { tool := program, threshold := threshold level }
  match s.logFile with
  | .null => (files, .ok log)
  | .text path =>
    match Log.openFile files path s.logJson.isTruthy 10485760 5 with
    | (files, .ok file) => (files, .ok { log with file := some file })
    | (files, .error failure) => (files, .error failure)
  | _ => (files, .error .wrongType)

/-- The first part of a run: at its end, or done with the conversion and waiting for its
duration. -/
inductive Progress
  | ended (o : Outcome)
  | converted (r : Run) (report : Report)

/-- Converts the input of a run. -/
def Run.convert (r : Run) : Progress :=
  match Conversion.stages r.settings.converter r.request.input r.request.output r.session with
  | (.ok report, session) => .converted { r with session } report
  | (.error (.conversion e), session) =>
    let session := session.record .error ("Conversion aborted: " ++ e.message)
    .ended ({ r with session }.fail e.message)
  | (.error failure, session) => .ended ({ r with session }.abort failure)

/-- Looks at the output of a run before the conversion. -/
def Run.begin (r : Run) : Progress :=
  let r := if r.request.quiet then r else r.put [.banner program toolkitVersion]
  let p := Path.ofText r.request.output
  match r.session.files.isDirectory p, r.session.files.pathExists p with
  | .error e, _ | _, .error e => .ended (r.abort (.file e))
  | .ok true, _ => .ended (r.fail ("Tiny mappings file is a directory: " ++ p.toText))
  | _, .ok true =>
    (r.put [.message .warning ("Tiny mappings file will be overwritten: " ++ p.toText)]).convert
  | _, .ok false => r.convert

/-- Prepares a request and does its conversion. The toolkit stands at `home`. -/
def Request.start (q : Request) (files : Files) (home : Location) (now : Moment) : Progress :=
  let silent : Log := { tool := program, threshold := 0 }
  let fresh : Run := { request := q, settings := {}, session := { files, log := silent, now } }
  match Settings.load files home q.config with
  | .error failure => .ended (fresh.fail ("Cannot load configuration: " ++ failure.message))
  | .ok settings =>
    match logLevel q settings.shared with
    | .error failure => .ended (fresh.abort failure)
    | .ok level =>
      match openLog files settings.shared level with
      | (files, .error failure) =>
        .ended ({ fresh with session := { files, log := silent, now } }.abort failure)
      | (files, .ok log) => { fresh with settings, session := { files, log, now } }.begin

/-- Reads the arguments and does what they ask for, up to the end of the conversion. -/
def start (files : Files) (home : Location) (now : Moment) (arguments : List Text) : Progress :=
  let usage (e : UsageError) : Progress := .ended { status := 2, complaint := e.message, files }
  match readArguments arguments with
  | .error e => usage e
  | .ok a =>
    match a.asks? with
    | some .version => .ended { status := 0, shown := .text versionLine, files }
    | some _ => .ended { status := 0, shown := .text help, files }
    | none =>
      match request files a with
      | .error (.usage e) => usage e
      | .error (.invalidPath e) => .ended { status := 1, failure := some (.file e), files }
      | .ok q => q.start files home now

/-- Saves the report, if the request names a file for it. -/
def Run.saveReport (r : Run) (report : Report) : Run × Except Failure Unit :=
  match r.request.report with
  | none => (r, .ok ())
  | some path =>
    match report.save r.session.now r.session.files (Path.ofText path) with
    | (files, .ok place) =>
      ({ r with session := { r.session with files } }.put
        [.message .success ("JSON report saved: " ++ place)], .ok ())
    | (files, .error failure) =>
      ({ r with session := { r.session with files } }, .error failure)

/-- Shows the report on the console, or as JSON, which cannot be printed if it has a surrogate. -/
def Run.showReport (r : Run) (report : Report) : Outcome :=
  if r.request.json then
    let json := report.toJson r.session.now
    if json.utf8?.isNone then r.abort .unencodable
    else { r.exit 0 with shown := .text (json ++ [.char '\n']) }
  else match report.display r.settings.converter.maxWarningsShown with
    | (items, none) => (r.put items).exit 0
    | (items, some failure) => (r.put items).abort failure

/-- Ends a run whose conversion took a number of microseconds. -/
def Run.finish (r : Run) (report : Report) (elapsed : Nat) : Outcome :=
  let (report, session) := Conversion.complete report elapsed r.session
  match { r with session }.saveReport report with
  | (r, .ok ()) => r.showReport report
  | (r, .error failure) => r.abort failure

/-- Ends what was started. -/
def Progress.finish (p : Progress) (elapsed : Nat) : Outcome :=
  match p with
  | ended o => o
  | converted r report => r.finish report elapsed

/-- Does what a request asks for, at a moment, with a conversion of a given duration. -/
def Request.run (q : Request) (files : Files) (home : Location) (now : Moment) (elapsed : Nat) :
    Outcome :=
  (q.start files home now).finish elapsed

/-- Runs the command line on files. -/
def run (files : Files) (home : Location) (now : Moment) (elapsed : Nat)
    (arguments : List Text) : Outcome :=
  (start files home now arguments).finish elapsed

end Remapping.CommandLine
