import Remapping.Failure
import Remapping.Log.Template
import Remapping.Moment
import Remapping.Value.Json

/-!
# Logs

A log writes one line per record at or above its threshold: a JSON object, or the time, the
level, the name of the log and the message. Records carry the operation that is open when they
are made. Read `emit_of_no_target` first: a log without a file changes no file.
-/

namespace Remapping

/-- The weight of a record. -/
inductive Severity
  | debug
  | info
  | warning
  | error
  deriving DecidableEq

namespace Severity

/-- The number that thresholds are compared with. -/
def rank : Severity → Nat
  | debug => 10
  | info => 20
  | warning => 30
  | error => 40

/-- The word for a weight. -/
def word : Severity → Text
  | debug => "DEBUG"
  | info => "INFO"
  | warning => "WARNING"
  | error => "ERROR"

end Severity

/-- The capital of a letter, if it is an ASCII letter. -/
def capital (c : CodePoint) : CodePoint :=
  if c = '\u0131' then 'I' else if c = '\u017f' then 'S' else c.toUpper

/-- The threshold that a level sets; levels are read without regard to case, and a word that
names none counts as `INFO`. -/
def threshold (level : Text) : Nat :=
  match Text.toString? (level.map capital) with
  | some "DEBUG" => 10
  | some "WARNING" | some "WARN" | some "NOTSET" => 30
  | some "ERROR" => 40
  | some "CRITICAL" | some "FATAL" => 50
  | _ => 20

/-- The file of a log. -/
structure LogFile where
  place : Location
  /-- Whether the records are JSON objects. -/
  json : Bool := false
  /-- The size from which the file is set aside; zero for never. -/
  maxBytes : Int := 10485760
  /-- How many files set aside are kept. -/
  backups : Nat := 5
  /-- Whether another file has taken the place of this one while it was open, so that what is
  written to it cannot be found any more. -/
  replaced : Bool := false

namespace LogFile

/-- The place of the n-th file set aside. -/
def backupPlace (file : LogFile) (n : Nat) : Location :=
  file.place.dropLast ++ [file.place.getLastD [] ++ .char '.' :: Text.ofNat n]

/-- Moves what stands at a place to another, if anything does. -/
def moveNode (files : Files) (source target : Location) : Files :=
  match files.node? source with
  | some node => (files.remove source).put target node
  | none => files

/-- Sets the file aside as the first backup, the first as the second and so on; the last one
is dropped. -/
def setAside (file : LogFile) (files : Files) : Files :=
  let shifted := (List.range (file.backups - 1)).reverse.foldl
    (fun files n => moveNode files (file.backupPlace (n + 1)) (file.backupPlace (n + 2))) files
  moveNode shifted file.place (file.backupPlace 1)

/-- The bytes in the file. -/
def contents (file : LogFile) (files : Files) : Bytes :=
  match files.node? file.place with
  | some (.file bytes) => bytes
  | _ => []

/-- The bytes of a line. A line with a surrogate has none, and is not written. -/
def lineBytes (line : Text) : Bytes := line.utf8?.getD []

/-- Appends a line, after setting the file aside if the line would fill it. -/
def append (file : LogFile) (files : Files) (line : Text) : Files :=
  let size := (file.contents files).length + line.length
  let full := 0 < file.maxBytes && file.maxBytes ≤ size && 0 < file.backups
  let files := if full then file.setAside files else files
  files.put file.place (.file (file.contents files ++ lineBytes line))

end LogFile

/-- A log: who writes it, from which weight on, in which operation, and to which file. -/
structure Log where
  tool : Text
  threshold : Nat
  operation : Option Text := none
  file : Option LogFile := none

namespace Log

/-- The name of a log, after the tool that writes it. -/
def name (log : Log) : Text := "tinyremap." ++ log.tool

/-- The line of a record. -/
def line (log : Log) (json : Bool) (now : Moment) (severity : Severity) (message : Text)
    (extra : Option Value) : Text :=
  if json then
    let entries : List (Text × Value) := [
      ("timestamp", .text now.precise), ("level", .text severity.word),
      ("logger", .text log.name), ("message", .text message), ("tool_name", .text log.tool)]
    let context : List (Text × Value) := match log.operation with
      | some operation => [("operation", .text operation)]
      | none => []
    let more : List (Text × Value) := match extra with
      | some value => [("extra", value)]
      | none => []
    Value.json (.table (entries ++ context ++ more)) ++ [.char '\n']
  else
    now.plain ++ " | " ++ Text.padRight 8 ' ' severity.word ++ " | " ++ log.name ++ " | " ++
      message ++ "\n"

/-- Writes a record if it weighs enough. -/
def emit (log : Log) (files : Files) (now : Moment) (severity : Severity) (message : Text)
    (extra : Option Value) : Files :=
  match log.file with
  | none => files
  | some file =>
    if log.threshold ≤ severity.rank ∧ !file.replaced then
      file.append files (log.line file.json now severity message extra)
    else files

/-- A log without a file changes no file. -/
theorem emit_of_no_target {log : Log} (h : log.file = none) (files : Files) (now : Moment)
    (severity : Severity) (message : Text) (extra : Option Value) :
    log.emit files now severity message extra = files := by
  simp [emit, h]

/-- Opens a log file for appending: makes the directories above it and the file itself. -/
def openFile (files : Files) (path : Text) (json : Bool) (maxBytes : Int) (backups : Nat) :
    Files × Except Failure LogFile :=
  let p := Path.ofText path
  match files.makeDirectories p.parent with
  | (files, .error e) => (files, .error (.file e))
  | (files, .ok ()) =>
    let place := p.place files.workingDirectory
    let opened := Path.ofLocation place
    match files.stat opened with
    | .ok (.file _) => (files, .ok { place, json, maxBytes, backups })
    | .ok .directory =>
      (files, .error (.file { fault := .isADirectory, path := opened.toText }))
    | .error _ =>
      match files.write opened [] with
      | .ok files => (files, .ok { place, json, maxBytes, backups })
      | .error fault => (files, .error (.file { fault, path := opened.toText }))

/-- The attributes of a record that keywords may not set. -/
def reservedAttributes : List Text :=
  ["message", "asctime", "name", "msg", "args", "levelname", "levelno", "pathname", "filename",
    "module", "exc_info", "exc_text", "stack_info", "lineno", "funcName", "created", "msecs",
    "relativeCreated", "thread", "threadName", "processName", "process"]

/-- Writes a record whose message is a template filled with values. Keywords become the extra
of the record; the keyword `extra` holds attributes of the record itself, of which only one
shows. A template that cannot be filled writes nothing. -/
def emitTemplate (log : Log) (files : Files) (now : Moment) (severity : Severity)
    (template : Text) (values : List Value) (keywords : List (Text × Value)) :
    Except Failure Files := do
  if keywords.any fun keyword => keyword.1 = "self" ∨ keyword.1 = "msg" then
    throw .wrongType
  let attributes ← match Value.find? keywords "extra" with
    | some (.table entries) => pure entries
    | some value => if value.isTruthy then throw .wrongType else pure []
    | none => pure []
  let own : List Text := ["extra", "exc_info", "stack_info", "stacklevel"]
  let named := keywords.filter fun keyword => !own.contains keyword.1
  if severity.rank < log.threshold then return files
  if attributes.any fun entry => reservedAttributes.contains entry.1 then
    throw .reservedAttribute
  let extra : Option Value :=
    if named.isEmpty then
      match Value.find? attributes "remap_extra" with
      | some .null | none => none
      | some value => some value
    else some (.table named)
  match Template.fill template values with
  | some message => return log.emit files now severity message extra
  | none => return files

end Log
end Remapping
