import Remapping.Mapping.Basic
import Remapping.Text.Blank
import Remapping.Text.Lines
import Remapping.Text.Quoted

/-!
# The yarn v1 layout

A header line with the version and the namespaces, then one row a line, its columns separated
by tabs. `readRow` reads one line by itself; `readLines` reads a file and keeps a warning for
every line that is not a row. `headerLine`, `classLine` and `memberLine` write the lines.
-/

namespace Remapping.Yarn

/-- Why a line is not a row. -/
inductive RowFault
  | unknownTag (tag : Text)
  | tooFewColumns (found required : Nat)
  deriving DecidableEq

/-- The sentence that reports a line that is not a row. -/
def RowFault.message : RowFault → Text
  | unknownTag tag => "Unknown mapping type " ++ Text.quoted tag
  | tooFewColumns found required =>
    "Column count mismatch, got " ++ Text.ofNat found ++ " while expected at least " ++
      Text.ofNat required

/-- How many columns a row needs; columns beyond are ignored. -/
def requiredColumns : RowKind → Nat
  | .classRow => 4
  | .fieldRow => 6
  | .methodRow => 6

/-- One row. -/
inductive Row
  | ofClass (entry : ClassEntry)
  | ofMember (entry : MemberEntry)

/-- The row of a kind with the given columns after the tag. -/
def Row.ofColumns? (lineNumber : Nat) : RowKind → List Text → Option Row
  | .classRow, obfuscated :: intermediate :: readable :: _ =>
    some (.ofClass { obfuscated, intermediate, readable })
  | .classRow, _ => none
  | kind, owner :: descriptor :: obfuscated :: intermediate :: readable :: _ =>
    some (.ofMember { kind, owner, descriptor, obfuscated, intermediate, readable, lineNumber })
  | _, _ => none

/-- Reads one line by itself. -/
def readRow (lineNumber : Nat) (line : Text) : Except RowFault Row :=
  let columns := line.splitOn (.char '\t')
  let tag := columns.headD []
  match RowKind.ofTag? tag with
  | none => .error (.unknownTag tag)
  | some kind =>
    match Row.ofColumns? lineNumber kind columns.tail with
    | some row => .ok row
    | none => .error (.tooFewColumns columns.length (requiredColumns kind))

/-- A line with its number, counted from one, and what it was read as. -/
structure Reading where
  lineNumber : Nat
  line : Text
  row : Except RowFault Row

namespace Reading

/-- The class read from a line. -/
def class? (r : Reading) : Option ClassEntry :=
  match r.row with
  | .ok (.ofClass entry) => some entry
  | _ => none

/-- The member of a kind read from a line. -/
def member? (kind : RowKind) (r : Reading) : Option MemberEntry :=
  match r.row with
  | .ok (.ofMember entry) => if entry.kind = kind then some entry else none
  | _ => none

/-- The warning about a line that is not a row. -/
def warning? (r : Reading) : Option RowWarning :=
  match r.row with
  | .error fault => some { lineNumber := r.lineNumber, message := fault.message, line := r.line }
  | .ok _ => none

end Reading

/-- Reads the lines after the header, the first of which has number `first`; blank lines are
passed over. -/
def readBody (first : Nat) (lines : List Text) : List Reading :=
  (lines.zipIdx first).filterMap fun (line, lineNumber) =>
    if line.all Text.isBlank then none
    else some { lineNumber, line, row := readRow lineNumber line }

/-- The namespaces that a header line lists: its non-empty columns after the first. -/
def headerNamespaces (header : Text) : List Text :=
  (header.splitOn (.char '\t')).tail.filter (· ≠ [])

/-- A first line that does not carry the supported version tag. -/
structure UnsupportedVersion where
  header : Text
  expected : Text
  deriving DecidableEq

/-- The message about an unsupported version. -/
def UnsupportedVersion.message (e : UnsupportedVersion) : Text :=
  let shown : Text := if e.header = [] then "<empty file>" else e.header
  "Only " ++ e.expected ++ " mappings are supported, got header " ++ Text.quoted shown

/-- Reads the lines of a file that has to carry the version tag. -/
def readLines (version : Text) (lines : List Text) :
    Except UnsupportedVersion (MappingSet × List RowWarning) :=
  match lines.map Text.dropLineEnd with
  | [] => .error ⟨[], version⟩
  | header :: body =>
    if version.isPrefixOf header then
      let readings := readBody 2 body
      .ok ({
        version
        namespaces := headerNamespaces header
        classes := readings.filterMap Reading.class?
        fields := readings.filterMap (Reading.member? .fieldRow)
        methods := readings.filterMap (Reading.member? .methodRow) },
        readings.filterMap Reading.warning?)
    else .error ⟨header, version⟩

/-- Reads a text that has to carry the version tag. -/
def readText (version : Text) (t : Text) :
    Except UnsupportedVersion (MappingSet × List RowWarning) :=
  readLines version (Text.lines t)

/-- The fault of the header line in the first part of a text, if the line ends in it. A carriage
return at the end of the part may still be followed by a line feed and ends no line. -/
def headerFault? (version : Text) (part : Text) : Option UnsupportedVersion :=
  let header := part.takeWhile fun c => c != .char '\n' && c != .char '\r'
  let ends : Bool := match part.drop header.length with
    | [] | [.char '\r'] => false
    | _ => true
  if ends && !version.isPrefixOf header then some ⟨header, version⟩ else none

/-- The header line: the version, then the namespaces. -/
def headerLine (m : MappingSet) : Text := List.intercalate [.char '\t'] (m.version :: m.namespaces)

/-- The line of a class. -/
def classLine (entry : ClassEntry) : Text :=
  List.intercalate [.char '\t']
    [RowKind.classRow.tag, entry.obfuscated, entry.intermediate, entry.readable]

/-- The line of a member. -/
def memberLine (entry : MemberEntry) : Text :=
  List.intercalate [.char '\t'] [entry.kind.tag, entry.owner, entry.descriptor, entry.obfuscated,
    entry.intermediate, entry.readable]

end Remapping.Yarn
