import Remapping.Number.Binary64
import Remapping.Text.Basic

/-!
# Records about timed work

Timed work is recorded when it starts, and when it ends without a failure, then with the
seconds that it took.
-/

namespace Remapping.Timing

/-- Microseconds as seconds with three digits after the point. -/
def seconds (microseconds : Nat) : Text :=
  let milliseconds := roundHalfEven microseconds 1000
  Text.ofNat (milliseconds / 1000) ++
    .char '.' :: Text.padLeft 3 '0' (Text.ofNat (milliseconds % 1000))

/-- The record of a start. -/
def started (label : Text) : Text := "Started: " ++ label

/-- The record of an end after some microseconds. -/
def completed (label : Text) (microseconds : Nat) : Text :=
  "Completed: " ++ label ++ " (" ++ seconds microseconds ++ " sec)"

end Remapping.Timing
