import Remapping.Text.Basic

/-!
# Mapping sets

The rows of a mapping file: class rows with three aliases of one class, and field and method
rows with an owner and a descriptor besides. Rows keep the order of the file within each kind.
-/

namespace Remapping

/-- The three kinds of row. -/
inductive RowKind
  | classRow
  | fieldRow
  | methodRow
  deriving DecidableEq

/-- The tag in the first column of a row. -/
def RowKind.tag : RowKind → Text
  | classRow => "CLASS"
  | fieldRow => "FIELD"
  | methodRow => "METHOD"

/-- The kind that a tag names; tags are read exactly. -/
def RowKind.ofTag? (tag : Text) : Option RowKind :=
  [classRow, fieldRow, methodRow].find? (·.tag = tag)

/-- Three aliases of one class. -/
structure ClassEntry where
  obfuscated : Text
  intermediate : Text
  readable : Text
  deriving DecidableEq

/-- A field or a method: the class that owns it, its descriptor and its three aliases. -/
structure MemberEntry where
  kind : RowKind
  owner : Text
  obfuscated : Text
  intermediate : Text
  readable : Text
  descriptor : Text
  /-- The line it was read from, counted from one. -/
  lineNumber : Int := 0
  deriving DecidableEq

/-- A row that was dropped, and why. -/
structure RowWarning where
  lineNumber : Int
  message : Text
  line : Text := []
  deriving DecidableEq

/-- Everything read from one mapping file. -/
structure MappingSet where
  version : Text := "v1"
  namespaces : List Text := []
  classes : List ClassEntry := []
  fields : List MemberEntry := []
  methods : List MemberEntry := []

namespace MappingSet

/-- The number of rows. -/
def rowCount (m : MappingSet) : Nat := m.classes.length + m.fields.length + m.methods.length

/-- The fields, then the methods. -/
def members (m : MappingSet) : List MemberEntry := m.fields ++ m.methods

end MappingSet
end Remapping
