import Remapping.Text.Basic

/-!
# Blank characters

The characters that count as white space when a line is tested for blankness or a number is
trimmed: the tab and the line, page and file separators of ASCII, the blank, the next-line
control, and the space, line and paragraph separators of Unicode.
-/

namespace Remapping.Text

/-- White space in the sense of this library. -/
def isBlank (c : CodePoint) : Bool :=
  let n := c.toNat
  (9 ≤ n && n ≤ 13) || (28 ≤ n && n ≤ 32) || n == 0x85 || n == 0xa0 || n == 0x1680 ||
    (0x2000 ≤ n && n ≤ 0x200a) || n == 0x2028 || n == 0x2029 || n == 0x202f || n == 0x205f ||
    n == 0x3000

end Remapping.Text
