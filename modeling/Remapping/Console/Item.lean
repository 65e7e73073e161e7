import Remapping.Value.Shown

/-!
# What a console shows

The things that are put on a console: a banner, a heading, a message with a sign, or a table.
-/

namespace Remapping.Console

/-- The sign in front of a message. -/
inductive Sign
  | success
  | warning
  | error
  | info
  deriving DecidableEq

/-- The line below a table. -/
inductive Caption
  /-- The table has no place for a caption. -/
  | without
  /-- The place of the caption is empty. -/
  | blank
  | line (text : Text)

/-- The text of a caption. -/
def Caption.text : Caption → Text
  | line text => text
  | _ => []

/-- A table: a row may have fewer or more cells than there are columns. -/
structure Table where
  title : Text
  columns : List Text
  rows : List (List Value)
  caption : Caption := .without
  /-- How columns are set off by weight or colour, which plain text does not show. -/
  styles : List Text := []

/-- One thing on a console. -/
inductive Item
  | banner (tool version : Text)
  | heading (title : Text)
  | message (sign : Sign) (text : Text)
  | table (t : Table)

end Remapping.Console
