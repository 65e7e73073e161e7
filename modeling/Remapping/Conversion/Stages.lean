import Remapping.Conversion.Output
import Remapping.Conversion.Session
import Remapping.Log.Timing
import Remapping.Mapping.Remap
import Remapping.Report.Basic
import Remapping.Settings.Basic

/-!
# Converting a mapping file

A conversion loads a yarn file, builds the symbol table of its classes, remaps its members and
writes a tiny file. Nothing is written before all members are remapped. `convert` does these
stages in order; each can also be done by itself.
-/

namespace Remapping.Conversion

variable [Codecs]

/-- The failure of a mapping file that is no text in its encoding. The header line is looked at
first if it stands whole in the text that is decoded before the fault. -/
def undecodable (version before : Text) (fault : DecodeFault) : Failure :=
  match Yarn.headerFault? version before with
  | some e => .conversion (.unsupportedVersion e)
  | none => .undecodable fault

/-- Reads the bytes of a mapping file as the settings say. -/
def readMappings (settings : ConverterSettings) (bytes : Bytes) :
    Except Failure (MappingSet × List RowWarning) :=
  match EncodingSetting.ofValue settings.inputEncoding, settings.supportedVersion with
  | .notAName, _ => .error .wrongType
  | .unknown, _ => .error .unknownEncoding
  | .known codec, .text version =>
    match codec.decode bytes with
    | .error fault => .error (undecodable version (codec.textBeforeFault bytes) fault)
    | .ok t => (Yarn.readText version t).mapError fun fault =>
      .conversion (.unsupportedVersion fault)
  | .known _, _ => .error (.invalidRecord [⟨["version"], .notText⟩])

/-- Reads the file at a path. -/
def readFile (p : Path) : Stage Bytes := do
  match (← get).files.read p with
  | .ok bytes => return bytes
  | .error fault => throw (.file { fault, path := p.toText })

/-- The record about a line that was dropped. -/
def skipped (w : RowWarning) : Text :=
  "Line " ++ Text.ofInt w.lineNumber ++ " skipped: " ++ w.message ++ " [" ++ w.line ++ "]"

/-- The record about the rows that were read. -/
def parsed (m : MappingSet) : Text :=
  "Parsed " ++ Text.ofNat m.rowCount ++ " lines of yarn mappings (" ++
    Text.ofNat m.classes.length ++ " classes, " ++ Text.ofNat m.fields.length ++ " fields, " ++
    Text.ofNat m.methods.length ++ " methods)"

/-- Reads the mapping file at a path, which is known to be a file. -/
def ingest (settings : ConverterSettings) (p : Path) : Stage (MappingSet × List RowWarning) := do
  record .info ("Parsing yarn mappings from " ++ p.toText)
  match readMappings settings (← readFile p) with
  | .error failure => throw failure
  | .ok (m, warnings) =>
    for w in warnings do record .warning (skipped w)
    record .info (parsed m)
    return (m, warnings)

/-- Loads the rows of a mapping file. -/
def load (settings : ConverterSettings) (input : Text) :
    Stage (MappingSet × List RowWarning) := do
  let p := Path.ofText input
  match (← get).files.pathExists p, (← get).files.isDirectory p with
  | .error e, _ => throw (.file e)
  | .ok false, _ => throw (.conversion (.inputMissing p.toText))
  | _, .error e => throw (.file e)
  | _, .ok true => throw (.conversion (.inputIsDirectory p.toText))
  | _, .ok false => within "ingest" (ingest settings p)

/-- The symbol table of the classes of a mapping set. -/
def buildTable (m : MappingSet) : StateM Session SymbolTable := do
  let table := SymbolTable.ofList m.classes
  for name in table.duplicates do
    record .debug ("Duplicate class row for " ++ name ++ "; first row wins")
  return table

/-- Remaps a mapping set. It comes back changed as far as the work went. -/
def remap (table : SymbolTable) (m : MappingSet) :
    StateM Session (MappingSet × Except Failure Remapper) :=
  within "remap" do
    match m.remap table with
    | (m, .error fault) => return (m, .error (.conversion (.descriptor fault)))
    | (m, .ok r) =>
      unless r.unresolved.isEmpty do
        record .debug
          (Text.ofNat r.unresolved.length ++ " referenced classes have no class row")
      return (m, .ok r)

/-- The log after a file took the place of another one: a log file that stood there can not be
found any more. -/
def noteReplaced (p : Path) (s : Session) : Session :=
  match s.log.file, s.files.locate p with
  | some file, .ok place =>
    if file.place = place then
      { s with log := { s.log with file := some { file with replaced := true } } }
    else s
  | _, _ => s

/-- Writes a mapping set as a tiny file and counts its rows. -/
def write (settings : ConverterSettings) (m : MappingSet) (output : Text) : Stage Nat :=
  within "write" <| ExceptT.run do
    record .info ("Writing tiny mappings to " ++ output)
    let p := Path.ofText output
    let atomic := settings.atomicWrite.isTruthy
    let s ← get
    let (files, outcome) :=
      Output.write s.files p atomic (EncodingSetting.ofValue settings.outputEncoding) m
    set { s with files }
    match outcome with
    | .error failure => throw failure
    | .ok rows =>
      if atomic then modify (noteReplaced p)
      return rows

/-- The label of a conversion in the log. -/
def label (input : Text) : Text := "conversion of " ++ input

/-- The stages of a conversion, without the end that tells how long it took. -/
def stages (settings : ConverterSettings) (input output : Text) : Stage Report := do
  record .debug (Timing.started (label input))
  let (m, warnings) ← load settings input
  let table ← buildTable m
  let (m, outcome) ← remap table m
  let r ← outcome
  let _ ← write settings m output
  return {
    inputPath := input
    outputPath := output
    classCount := m.classes.length
    fieldCount := m.fields.length
    methodCount := m.methods.length
    warnings
    unresolved := r.unresolved
    duplicates := table.duplicates }

/-- Ends a conversion that took a number of microseconds. -/
def complete (r : Report) (elapsed : Nat) : StateM Session Report := do
  record .info (Timing.completed (label r.inputPath) elapsed)
  record .info ("Written " ++ Text.ofInt r.rowsConverted ++ " rows of tiny mappings with " ++
    Text.ofNat r.warningCount ++ " warnings")
  return { r with duration := some elapsed }

/-- Converts a yarn file into a tiny file, in a number of microseconds. -/
def convert (settings : ConverterSettings) (input output : Text) (elapsed : Nat) :
    Stage Report := do
  complete (← stages settings input output) elapsed

end Remapping.Conversion
