import Remapping.Text.Printable

/-!
# Quoted text

How a message shows a text it speaks about: between single quotes, or between double quotes if
the text holds a single quote and no double quote. The quote in use and the backslash are
escaped, and so is every character that is not printable.
-/

namespace Remapping.Text

/-- The quote put around a text. -/
def quoteMark (t : Text) : CodePoint :=
  if t.contains '\x27' && !t.contains '\x22' then '\x22' else '\x27'

/-- The form of one character between quotes `mark`. -/
def quotedChar (mark c : CodePoint) : Text :=
  if c = mark ∨ c = '\\' then [.char '\\', c]
  else if c = '\t' then "\\t"
  else if c = '\n' then "\\n"
  else if c = '\r' then "\\r"
  else if isPrintable c then [c]
  else if c.toNat < 0x100 then .char '\\' :: .char 'x' :: ofHex 2 c.toNat
  else if c.toNat < 0x10000 then .char '\\' :: .char 'u' :: ofHex 4 c.toNat
  else .char '\\' :: .char 'U' :: ofHex 8 c.toNat

/-- The quoted form of a text. -/
def quoted (t : Text) : Text :=
  let mark := quoteMark t
  mark :: t.flatMap (quotedChar mark) ++ [mark]

end Remapping.Text
