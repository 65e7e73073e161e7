import Remapping.Text.Basic

/-!
# Lines of a text

A line ends at a line feed, at a carriage return, or at the two together; no other character
ends a line, and text after the last terminator is a line of its own unless it is empty.
`lines` reads the text once, character by character, in a `LineSplit` state.
-/

namespace Remapping.Text

/-- The lines closed so far and the open line, both newest first. -/
structure LineSplit where
  closed : List Text := []
  current : Text := []
  /-- The last character was a carriage return, which a line feed would complete. -/
  afterReturn : Bool := false

namespace LineSplit

/-- Ends the open line. -/
def close (s : LineSplit) (afterReturn : Bool) : LineSplit :=
  ⟨s.current.reverse :: s.closed, [], afterReturn⟩

/-- Reads one character. -/
def step (s : LineSplit) (c : CodePoint) : LineSplit :=
  if c = '\n' then if s.afterReturn then { s with afterReturn := false } else s.close false
  else if c = '\r' then s.close true
  else ⟨s.closed, c :: s.current, false⟩

/-- The lines at the end of the text. -/
def finish (s : LineSplit) : List Text :=
  (if s.current = [] then s.closed else s.current.reverse :: s.closed).reverse

end LineSplit

/-- The lines of a text, without their terminators. -/
def lines (t : Text) : List Text := (t.foldl LineSplit.step {}).finish

/-- A character of a line terminator. -/
def isLineEnd (c : CodePoint) : Bool := c = '\n' || c = '\r'

/-- Removes the terminator characters at the end of a line. -/
def dropLineEnd (t : Text) : Text := (t.reverse.dropWhile isLineEnd).reverse

end Remapping.Text
