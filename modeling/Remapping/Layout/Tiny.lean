import Remapping.Mapping.Basic

/-!
# The tiny v1 layout

The layout of remapped rows: the obfuscated names are left out, so a class row has three
columns and a member row has five. Classes come first, then fields, then methods.
-/

namespace Remapping.Tiny

/-- The header: the version, and the namespaces after the first if there are at least three. -/
def header (m : MappingSet) : Text :=
  if m.namespaces.length < 3 then m.version
  else List.intercalate [.char '\t'] (m.version :: m.namespaces.tail)

/-- The row of a class. -/
def classRow (entry : ClassEntry) : Text :=
  List.intercalate [.char '\t'] [RowKind.classRow.tag, entry.intermediate, entry.readable]

/-- The row of a member. -/
def memberRow (entry : MemberEntry) : Text :=
  List.intercalate [.char '\t'] [entry.kind.tag, entry.owner, entry.descriptor, entry.intermediate,
    entry.readable]

/-- The header and every row. -/
def rows (m : MappingSet) : List Text :=
  header m :: m.classes.map classRow ++ m.members.map memberRow

/-- The text of a file: every row with a line feed after it. -/
def text (m : MappingSet) : Text := (rows m).flatMap (· ++ [.char '\n'])

end Remapping.Tiny
