import Remapping.Number.Binary64
import Remapping.Text.Basic

/-!
# The shortest decimal of a floating-point number

A finite number is shown with the fewest decimal digits that read back as it, and of those the
nearest. With one digit, two digits and so on, the two neighbours of the number on the decimal
grid of that many digits are tried in exact arithmetic. `render` writes the digits: with a
point and at least one digit after it from 0.0001 up to below 10^16, else with an exponent.
-/

namespace Remapping.Binary64

/-- A decimal: `digits * 10 ^ exponent`. -/
structure Decimal where
  digits : Nat
  exponent : Int
  deriving DecidableEq

/-- The number of decimal digits before the point of `num / den`; not positive below one. -/
def decimalSize (num den : Nat) : Int :=
  let guess : Int := (Nat.toDigits 10 num).length - (Nat.toDigits 10 den).length
  if den * Nat.pow 10 guess.toNat ≤ num * Nat.pow 10 (-guess).toNat then guess + 1 else guess

/-- Four times the lower end, the value and the upper end of the interval of the ratios that
round to `mantissa * 2 ^ exponent`, in units of `2 ^ exponent`. -/
def interval (mantissa : Nat) (exponent : Int) : Nat × Nat × Nat :=
  let below := if mantissa = Nat.pow 2 52 ∧ -1074 < exponent then 1 else 2
  (4 * mantissa - below, 4 * mantissa, 4 * mantissa + 2)

/-- The better of the two neighbours of a number on the grid of multiples of `10 ^ grid`, if
one of them reads back as the number. -/
def neighbour? (mantissa : Nat) (exponent grid : Int) : Option Decimal :=
  let (low, value, high) := interval mantissa exponent
  let unit := 4 * Nat.pow 10 grid.toNat * Nat.pow 2 (-exponent).toNat
  let scale := Nat.pow 10 (-grid).toNat * Nat.pow 2 exponent.toNat
  let inside (digits : Nat) : Bool :=
    if mantissa % 2 = 0 then low * scale ≤ digits * unit && digits * unit ≤ high * scale
    else low * scale < digits * unit && digits * unit < high * scale
  let down := value * scale / unit
  let up := down + 1
  let toDown := value * scale - down * unit
  let toUp := up * unit - value * scale
  let preferUp := toUp < toDown || (toUp == toDown && down % 2 == 1)
  match inside down, inside up with
  | true, true => some ⟨if preferUp then up else down, grid⟩
  | true, false => some ⟨down, grid⟩
  | false, true => some ⟨up, grid⟩
  | false, false => none

/-- Removes zeros at the end of the digits. -/
def Decimal.trim (fuel : Nat) (d : Decimal) : Decimal :=
  match fuel with
  | 0 => d
  | fuel + 1 =>
    if d.digits ≠ 0 ∧ d.digits % 10 = 0 then trim fuel ⟨d.digits / 10, d.exponent + 1⟩ else d

/-- The shortest decimal that reads back as a positive number; seventeen digits always do. -/
def shortest (mantissa : Nat) (exponent : Int) : Decimal :=
  let (num, den) := ratio mantissa exponent
  let size := decimalSize num den
  let found := (List.range 17).findSome? fun (n : Nat) =>
    neighbour? mantissa exponent (size - (n + 1))
  (found.getD ⟨0, 0⟩).trim 20

/-- A power of ten after a mark: its sign and at least two digits. -/
def powerOfTen (power : Int) : Text :=
  .char 'e' :: (if power < 0 then '-' else '+') :: Text.padLeft 2 '0' (Text.ofNat power.natAbs)

/-- The text of a decimal: positional while its first digit stands at most sixteen places
before the point or four after it, else with an exponent of at least two digits. -/
def Decimal.render (d : Decimal) : Text :=
  let digits := Text.ofNat d.digits
  let point : Int := digits.length + d.exponent
  if -4 < point ∧ point ≤ 16 then
    if point ≤ 0 then "0." ++ Text.padLeft ((-point).toNat + digits.length) '0' digits
    else
      let whole := Text.padRight point.toNat '0' (digits.take point.toNat)
      let part := digits.drop point.toNat
      whole ++ .char '.' :: (if part = [] then [.char '0'] else part)
  else
    let power := point - 1
    let fraction := if digits.length = 1 then [] else .char '.' :: digits.drop 1
    digits.take 1 ++ fraction ++ powerOfTen power

/-- The text of a number as it stands in a document. -/
def render : Binary64 → Text
  | .finite negative mantissa exponent =>
    let sign : Text := if negative then "-" else []
    if mantissa = 0 then sign ++ "0.0"
    else sign ++ (shortest mantissa exponent).render
  | .infinite negative => if negative then "-Infinity" else "Infinity"
  | .nan => "NaN"

/-- A finite number without a fraction, rounded half to even; the sign of a negative number
stays even if nothing else of it does. -/
def renderWhole : Binary64 → Text
  | .finite negative mantissa exponent =>
    let (n, d) := ratio mantissa exponent
    let sign : Text := if negative then "-" else []
    sign ++ Text.ofNat (roundHalfEven n d)
  | x => render x

end Remapping.Binary64
