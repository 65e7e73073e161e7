import Remapping.Toml.Reader

/-!
# Numbers and moments in settings files

Integers are decimal with a sign, or hexadecimal, octal or binary without one; single
underscores may stand between digits. A number with a fraction or an exponent is a binary
number. Dates and times are kept as they are written, after a check that they exist.
-/

namespace Remapping.Toml

/-- The digits at the front of a text, without the single underscores between them. -/
def digits (isDigit : CodePoint → Bool) : Text → Text × Text
  | [] => ([], [])
  | .char '_' :: c :: rest =>
    if isDigit c then
      let (more, rest) := digits isDigit rest
      (c :: more, rest)
    else ([], .char '_' :: c :: rest)
  | c :: rest =>
    if isDigit c then
      let (more, rest) := digits isDigit rest
      (c :: more, rest)
    else ([], c :: rest)

/-- The digits at the front of a text that has to start with one. -/
def digits1 (isDigit : CodePoint → Bool) (t : Text) : Option (Text × Text) :=
  if (t.head?.map isDigit).getD false then some (digits isDigit t) else none

/-- The number written with some digits in a base. -/
def valueOf (base : Nat) (t : Text) : Nat :=
  t.foldl (fun n c => n * base + c.hexValue?.getD 0) 0

/-- Reads an integer in a base that its mark shows. -/
def markedInteger : Reader Value := fun t =>
  let inBase (base : Nat) (rest : Text) : Option (Value × Text) :=
    (digits1 (fun c => c.hexValue?.any (· < base)) rest).map fun (ds, rest) =>
      (.int (valueOf base ds), rest)
  match t with
  | .char '0' :: .char 'x' :: rest => inBase 16 rest
  | .char '0' :: .char 'o' :: rest => inBase 8 rest
  | .char '0' :: .char 'b' :: rest => inBase 2 rest
  | _ => none

/-- A sign, and whether it is a minus. -/
def sign (t : Text) : Bool × Text :=
  match t with
  | .char '-' :: rest => (true, rest)
  | .char '+' :: rest => (false, rest)
  | rest => (false, rest)

/-- The digits after a point, if any. -/
def fraction (t : Text) : Option (Text × Text) :=
  match t with
  | .char '.' :: rest => digits1 CodePoint.isDigit rest
  | _ => none

/-- The exponent after its letter, if any. -/
def exponent (t : Text) : Option (Int × Text) :=
  match t with
  | c :: rest =>
    if c = 'e' ∨ c = 'E' then
      let (negative, rest) := sign rest
      (digits1 CodePoint.isDigit rest).map fun (ds, rest) =>
        ((if negative then -(valueOf 10 ds : Int) else valueOf 10 ds), rest)
    else none
  | [] => none

/-- Reads a decimal number; only a zero alone may start with a zero. -/
def decimal : Reader Value := fun t => do
  let (negative, unsigned) := sign t
  let (whole, rest) ← match unsigned with
    | .char '0' :: rest => some ([.char '0'], rest)
    | _ => digits1 CodePoint.isDigit unsigned
  match fraction rest, exponent rest with
  | none, none =>
    let n : Int := valueOf 10 whole
    return (.int (if negative then -n else n), rest)
  | none, some (power, rest) =>
    return (.float (Binary64.ofDecimal negative (valueOf 10 whole) power), rest)
  | some (places, rest), _ =>
    let (power, rest) := (exponent rest).getD (0, rest)
    return (.float (Binary64.ofDecimal negative (valueOf 10 (whole ++ places))
      (power - places.length)), rest)

/-- Reads the words for what is no finite number. -/
def special : Reader Value := fun t =>
  let (negative, unsigned) := sign t
  match unsigned with
  | .char 'i' :: .char 'n' :: .char 'f' :: rest => some (.float (.infinite negative), rest)
  | .char 'n' :: .char 'a' :: .char 'n' :: rest => some (.float .nan, rest)
  | _ => none

/-- Reads a number. -/
def number : Reader Value := markedInteger <|> decimal <|> special

/-! ## Dates and times -/

/-- The number of two digits. -/
def twoDigits? (a b : CodePoint) : Option Nat :=
  if a.isDigit && b.isDigit then some (valueOf 10 [a, b]) else none

/-- The number of days of a month. -/
def daysInMonth (year month : Nat) : Nat :=
  if month = 2 then
    if year % 4 = 0 ∧ (year % 100 ≠ 0 ∨ year % 400 = 0) then 29 else 28
  else if [4, 6, 9, 11].contains month then 30 else 31

/-- The length of a date at the front of a text. -/
def dateLength? (t : Text) : Option Nat :=
  match t with
  | a :: b :: c :: d :: .char '-' :: e :: f :: .char '-' :: g :: h :: _ => do
    let year := (← twoDigits? a b) * 100 + (← twoDigits? c d)
    let month ← twoDigits? e f
    let day ← twoDigits? g h
    if year ≠ 0 ∧ 1 ≤ month ∧ month ≤ 12 ∧ 1 ≤ day ∧ day ≤ daysInMonth year month then some 10
    else none
  | _ => none

/-- The length of an hour and a minute at the front of a text. -/
def minuteLength? (t : Text) : Option Nat :=
  match t with
  | a :: b :: .char ':' :: c :: d :: _ => do
    if (← twoDigits? a b) < 24 ∧ (← twoDigits? c d) < 60 then some 5 else none
  | _ => none

/-- The length of a time at the front of a text, with its fraction of a second. -/
def timeLength? (t : Text) : Option Nat := do
  let minute ← minuteLength? t
  match t.drop minute with
  | .char ':' :: a :: b :: rest =>
    if (← twoDigits? a b) < 60 then
      let places := match rest with
        | .char '.' :: rest => (rest.takeWhile CodePoint.isDigit).length
        | _ => 0
      return minute + 3 + (if places = 0 then 0 else places + 1)
    else none
  | _ => none

/-- The length of an offset from universal time at the front of a text, if any. -/
def offsetLength (t : Text) : Nat :=
  match t with
  | c :: rest =>
    if c = 'Z' ∨ c = 'z' then 1
    else if c = '+' ∨ c = '-' then ((minuteLength? rest).map (· + 1)).getD 0
    else 0
  | [] => 0

/-- The length of a time after a date with the mark between them, if any. -/
def laterLength (t : Text) : Nat :=
  match t with
  | c :: rest =>
    if c = 'T' ∨ c = 't' ∨ c = ' ' then
      match timeLength? rest with
      | some time => 1 + time + offsetLength (rest.drop time)
      | none => 0
    else 0
  | [] => 0

/-- Reads a date, a time, or both. -/
def moment : Reader Value := fun t => do
  let length ← (dateLength? t).map (fun date => date + laterLength (t.drop date)) <|> timeLength? t
  return (.moment (t.take length), t.drop length)

end Remapping.Toml
