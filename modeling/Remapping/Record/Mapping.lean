import Remapping.Mapping.Basic
import Remapping.Record.Checked

/-!
# Mapping sets as records

Class entries, members, warnings and mapping sets read from values and given back as values,
and the assignment of single fields: a class entry is frozen, a member checks what is assigned
to it, and the other records take any value for a field they have.
-/

namespace Remapping

/-- Reads the kind of a row from its tag. -/
def RowKind.ofValue : Value → Checked RowKind
  | .text tag =>
    match RowKind.ofTag? tag with
    | some kind => .ok kind
    | none => .refuse .notRowKind
  | _ => .refuse .notRowKind

namespace ClassEntry

/-- Reads a class entry. -/
def ofValue : Value → Checked ClassEntry :=
  Value.readRecord fun entries =>
    ClassEntry.mk <$> Value.required entries "obfuscated" Value.readText <*>
      Value.required entries "intermediate" Value.readText <*>
      Value.required entries "readable" Value.readText

/-- A class entry as a value. -/
def toValue (e : ClassEntry) : Value :=
  .table [("obfuscated", .text e.obfuscated), ("intermediate", .text e.intermediate),
    ("readable", .text e.readable)]

end ClassEntry

namespace MemberEntry

/-- Reads a member. -/
def ofValue : Value → Checked MemberEntry :=
  Value.readRecord fun entries =>
    MemberEntry.mk <$> Value.required entries "kind" RowKind.ofValue <*>
      Value.required entries "owner" Value.readText <*>
      Value.required entries "obfuscated" Value.readText <*>
      Value.required entries "intermediate" Value.readText <*>
      Value.required entries "readable" Value.readText <*>
      Value.required entries "type_descriptor" Value.readText <*>
      Value.optional entries "line_number" 0 Value.readInteger

/-- A member as a value. -/
def toValue (e : MemberEntry) : Value :=
  .table [("kind", .text e.kind.tag), ("owner", .text e.owner),
    ("obfuscated", .text e.obfuscated), ("intermediate", .text e.intermediate),
    ("readable", .text e.readable), ("type_descriptor", .text e.descriptor),
    ("line_number", .int e.lineNumber)]

/-- Assigns a field after a check of the value. -/
def assign (e : MemberEntry) (field : Text) (value : Value) : Checked MemberEntry :=
  Checked.below field <|
    if field = "kind" then (RowKind.ofValue value).map ({ e with kind := · })
    else if field = "owner" then value.readText.map ({ e with owner := · })
    else if field = "obfuscated" then value.readText.map ({ e with obfuscated := · })
    else if field = "intermediate" then value.readText.map ({ e with intermediate := · })
    else if field = "readable" then value.readText.map ({ e with readable := · })
    else if field = "type_descriptor" then value.readText.map ({ e with descriptor := · })
    else if field = "line_number" then value.readInteger.map ({ e with lineNumber := · })
    else .refuse .unknownField

end MemberEntry

namespace RowWarning

/-- Reads a warning. -/
def ofValue : Value → Checked RowWarning :=
  Value.readRecord fun entries =>
    RowWarning.mk <$> Value.required entries "line_number" Value.readInteger <*>
      Value.required entries "message" Value.readText <*>
      Value.optional entries "line" [] Value.readText

/-- A warning as a value. -/
def toValue (w : RowWarning) : Value :=
  .table [("line_number", .int w.lineNumber), ("message", .text w.message), ("line", .text w.line)]

end RowWarning

namespace MappingSet

/-- Reads a mapping set. -/
def ofValue : Value → Checked MappingSet :=
  Value.readRecord fun entries =>
    MappingSet.mk <$> Value.optional entries "version" "v1" Value.readText <*>
      Value.optional entries "namespaces" [] (Value.readList Value.readText) <*>
      Value.optional entries "classes" [] (Value.readList ClassEntry.ofValue) <*>
      Value.optional entries "fields" [] (Value.readList MemberEntry.ofValue) <*>
      Value.optional entries "methods" [] (Value.readList MemberEntry.ofValue)

/-- A mapping set as a value. -/
def toValue (m : MappingSet) : Value :=
  .table [("version", .text m.version), ("namespaces", .list (m.namespaces.map .text)),
    ("classes", .list (m.classes.map ClassEntry.toValue)),
    ("fields", .list (m.fields.map MemberEntry.toValue)),
    ("methods", .list (m.methods.map MemberEntry.toValue))]

end MappingSet

/-- The records that can be read and assigned to. -/
inductive RecordKind
  | classEntry
  | member
  | warning
  | mappingSet
  deriving DecidableEq

/-- Why a field cannot be assigned. -/
inductive AssignFault
  | refused (issues : List Issue)
  /-- The record has no such field. -/
  | noField
  /-- The field is computed from others. -/
  | computed

namespace RecordKind

/-- Reads a record, as a value that has every field. -/
def read (kind : RecordKind) (value : Value) : Checked Value :=
  match kind with
  | classEntry => (ClassEntry.ofValue value).map ClassEntry.toValue
  | member => (MemberEntry.ofValue value).map MemberEntry.toValue
  | warning => (RowWarning.ofValue value).map RowWarning.toValue
  | mappingSet => (MappingSet.ofValue value).map MappingSet.toValue

/-- The fields of a record that are computed from others. -/
def computedFields : RecordKind → List Text
  | mappingSet => ["row_count", "members"]
  | _ => []

/-- Replaces a field of a record that does not check what is assigned to it. -/
def replaceField (kind : RecordKind) (record : Value) (field : Text) (value : Value) :
    Except AssignFault Value :=
  match record with
  | .table entries =>
    if entries.any (·.1 = field) then
      .ok (.table (entries.map fun entry =>
        if entry.1 = field then (field, value) else entry))
    else .error (if field ∈ kind.computedFields then .computed else .noField)
  | _ => .error .noField

/-- Assigns a field of a record; a name that starts with an underscore is no field of the
record and is left to its owner. -/
def assign (kind : RecordKind) (record : Value) (field : Text) (value : Value) :
    Except AssignFault Value :=
  if field.head? = some (.char '_') then .ok record
  else match kind with
    | classEntry => .error (.refused [⟨[field], .frozen⟩])
    | member =>
      match MemberEntry.ofValue record with
      | .refused issues => .error (.refused issues)
      | .ok e =>
        match e.assign field value with
        | .ok e => .ok e.toValue
        | .refused issues => .error (.refused issues)
    | warning | mappingSet => replaceField kind record field value

end RecordKind
end Remapping
