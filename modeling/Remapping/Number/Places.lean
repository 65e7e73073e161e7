import Remapping.Number.Shortest

/-!
# Decimals of a given length

The digits of a ratio rounded to a number of places after the point, or to a number of
significant digits. Halfway goes to the even neighbour.
-/

namespace Remapping.Binary64

/-- The digits before the point and the `places` digits after it. -/
def placesOf (places num den : Nat) : Text × Text :=
  let digits :=
    Text.padLeft (places + 1) '0' (Text.ofNat (roundHalfEven (num * Nat.pow 10 places) den))
  (digits.take (digits.length - places), digits.drop (digits.length - places))

/-- The first `count` digits and the power of ten of the first of them. -/
def significant (count num den : Nat) : Text × Int :=
  if num = 0 then (List.replicate count (.char '0'), 0)
  else
    let power := decimalSize num den - 1
    let shift : Int := count - 1 - power
    let rounded := roundHalfEven (num * Nat.pow 10 shift.toNat) (den * Nat.pow 10 (-shift).toNat)
    if rounded = Nat.pow 10 count then (Text.ofNat (Nat.pow 10 (count - 1)), power + 1)
    else (Text.ofNat rounded, power)

/-- Digits with a point in front of the last part. Without a last part there is a point only if
`keepPoint` is set. -/
def withPoint (keepPoint : Bool) (whole part : Text) : Text :=
  if part.isEmpty && !keepPoint then whole else whole ++ .char '.' :: part

/-- A ratio with `places` digits after the point. -/
def fixed (keepPoint : Bool) (places num den : Nat) : Text :=
  withPoint keepPoint (placesOf places num den).1 (placesOf places num den).2

/-- A ratio as one digit, `places` digits after the point and a power of ten. -/
def scientific (keepPoint : Bool) (places num den : Nat) : Text :=
  let (digits, power) := significant (places + 1) num den
  withPoint keepPoint (digits.take 1) (digits.drop 1) ++ powerOfTen power

/-- A ratio with `count` significant digits, with a power of ten if that is below -4 or not
below `count`. Zeros at the end of the part after the point stay only if `keepPoint` is set. -/
def general (keepPoint : Bool) (count num den : Nat) : Text :=
  let count := max count 1
  let (digits, power) := significant count num den
  let trim (part : Text) : Text :=
    if keepPoint then part else (part.reverse.dropWhile (· = .char '0')).reverse
  if power < -4 ∨ (count : Int) ≤ power then
    withPoint keepPoint (digits.take 1) (trim (digits.drop 1)) ++ powerOfTen power
  else if power < 0 then
    withPoint keepPoint "0"
      (trim (Text.padLeft ((-power - 1).toNat + digits.length) '0' digits))
  else
    withPoint keepPoint (digits.take (power.toNat + 1)) (trim (digits.drop (power.toNat + 1)))

end Remapping.Binary64
