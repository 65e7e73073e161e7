import Remapping.Failure
import Remapping.Moment
import Remapping.Report.Basic
import Remapping.Settings.Basic
import Remapping.Value.Json

/-!
# Report documents

A report as a JSON document, and the file it is saved in.
-/

namespace Remapping.Report

/-- The number of seconds, or null while the conversion runs. -/
def durationValue (r : Report) : Value :=
  match r.durationSeconds with
  | some seconds => .float seconds
  | none => .null

/-- A report as a document made at a moment. -/
def toValue (r : Report) (now : Moment) : Value :=
  .table [
    ("report_type", .text "yarn2tiny_conversion"),
    ("version", .text toolkitVersion),
    ("generated_at", .text now.precise),
    ("input_path", .text r.inputPath),
    ("output_path", .text r.outputPath),
    ("duration_seconds", r.durationValue),
    ("rows", .table [
      ("classes", .int r.classCount),
      ("fields", .int r.fieldCount),
      ("methods", .int r.methodCount),
      ("total", .int r.rowsConverted)]),
    ("warning_count", .int r.warningCount),
    ("warnings", .list (r.warnings.map RowWarning.toValue)),
    ("unresolved_classes", .list (r.unresolved.map .text)),
    ("duplicate_classes", .list (r.duplicates.map .text))]

/-- The JSON text of a report. -/
def toJson (r : Report) (now : Moment) : Text := (r.toValue now).jsonIndented 0

/-- Saves the JSON text of a report, with the directories above it, and gives its absolute
path. The file is emptied before, and stays empty if the text has a surrogate. -/
def save (r : Report) (now : Moment) (files : Files) (p : Path) : Files × Except Failure Text :=
  match files.makeDirectories p.parent with
  | (files, .error e) => (files, .error (.file e))
  | (files, .ok ()) =>
    let contents := (r.toJson now).utf8?
    match files.write p (contents.getD []) with
    | .error fault => (files, .error (.file { fault, path := p.toText }))
    | .ok written =>
      (written, if contents.isNone then .error .unencodable
        else .ok (Path.ofLocation (p.place files.workingDirectory)).toText)

end Remapping.Report
