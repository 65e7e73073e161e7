import Remapping.Number.Places
import Remapping.Value.Shown

/-!
# Directives of message templates

A directive says how one value stands in a message: flags, a width, a precision and a letter,
in this order after a percent sign. A width or a precision can also be a value of its own,
written as an asterisk. `Directive.fill` shows a value, or gives `none` if it does not suit the
letter.
-/

namespace Remapping

/-- A width or a precision: a number, or an asterisk for the next value. -/
inductive Extent
  | given (n : Nat)
  | fromValue
  deriving DecidableEq

/-- One directive. -/
structure Directive where
  key : Option Text
  flags : Text
  width : Extent
  precision : Option Extent
  letter : CodePoint

namespace Directive

/-- The largest width or precision. -/
def largestExtent : Nat := Nat.pow 2 31 - 1

/-- Reads a key up to the parenthesis that closes it; `depth` inner ones are open. -/
def readKey (depth : Nat) : Text → Option (Text × Text)
  | [] => none
  | c :: t =>
    if c = ')' ∧ depth = 0 then some ([], t)
    else
      let depth := if c = '(' then depth + 1 else if c = ')' then depth - 1 else depth
      (readKey depth t).map fun (key, rest) => (c :: key, rest)

/-- Reads a key in parentheses, if there is one. -/
def readKey? : Text → Option (Option Text × Text)
  | .char '(' :: t => (readKey 0 t).map fun (key, rest) => (some key, rest)
  | t => some (none, t)

/-- The number that decimal digits stand for. -/
def numberOf (digits : Text) : Nat := digits.foldl (fun n c => n * 10 + (c.toNat - 48)) 0

/-- Reads a width or the digits of a precision; no digits count as zero. -/
def readExtent : Text → Option (Extent × Text)
  | .char '*' :: t => some (.fromValue, t)
  | t =>
    let n := numberOf (t.takeWhile CodePoint.isDigit)
    if n ≤ largestExtent then some (.given n, t.dropWhile CodePoint.isDigit) else none

/-- Reads a precision after its point, if there is one. -/
def readPrecision : Text → Option (Option Extent × Text)
  | .char '.' :: t => (readExtent t).map fun (extent, rest) => (some extent, rest)
  | t => some (none, t)

/-- Skips one letter that would say how large a number is. -/
def skipSize : Text → Text
  | c :: t => if c = 'h' ∨ c = 'l' ∨ c = 'L' then t else c :: t
  | [] => []

/-- Whether a character is a flag. -/
def isFlag (c : CodePoint) : Bool := List.contains "-0+ #" c

/-- Reads a directive after its percent sign. -/
def read (t : Text) : Option (Directive × Text) :=
  (readKey? t).bind fun (key, t) =>
  (readExtent (t.dropWhile isFlag)).bind fun (width, afterWidth) =>
  (readPrecision afterWidth).bind fun (precision, afterPrecision) =>
  match skipSize afterPrecision with
  | [] => none
  | letter :: rest => some (⟨key, t.takeWhile isFlag, width, precision, letter⟩, rest)

theorem length_readKey {depth : Nat} {t : Text} {p : Text × Text} (h : readKey depth t = some p) :
    p.2.length < t.length := by
  induction t generalizing depth p with
  | nil => simp [readKey] at h
  | cons c t ih =>
    simp only [readKey] at h
    split at h
    · obtain rfl := Option.some.inj h
      simp
    · obtain ⟨q, hq, rfl⟩ := Option.map_eq_some_iff.1 h
      have := ih hq
      simp only [List.length_cons]
      omega

theorem length_readKey? {t : Text} {p : Option Text × Text} (h : readKey? t = some p) :
    p.2.length ≤ t.length := by
  unfold readKey? at h
  split at h
  · obtain ⟨q, hq, rfl⟩ := Option.map_eq_some_iff.1 h
    have := length_readKey hq
    simp only [List.length_cons]
    omega
  · obtain rfl := Option.some.inj h
    exact Nat.le_refl _

theorem length_readExtent {t : Text} {p : Extent × Text} (h : readExtent t = some p) :
    p.2.length ≤ t.length := by
  unfold readExtent at h
  split at h
  · obtain rfl := Option.some.inj h
    simp
  · dsimp only at h
    split at h
    · obtain rfl := Option.some.inj h
      exact (List.dropWhile_sublist _).length_le
    · simp at h

theorem length_readPrecision {t : Text} {p : Option Extent × Text}
    (h : readPrecision t = some p) : p.2.length ≤ t.length := by
  unfold readPrecision at h
  split at h
  · obtain ⟨q, hq, rfl⟩ := Option.map_eq_some_iff.1 h
    have := length_readExtent hq
    simp only [List.length_cons]
    omega
  · obtain rfl := Option.some.inj h
    exact Nat.le_refl _

theorem length_skipSize (t : Text) : (skipSize t).length ≤ t.length := by
  unfold skipSize
  split
  · split <;> simp
  · simp

/-- What follows a directive is shorter than what it was read from. -/
theorem length_read {t : Text} {p : Directive × Text} (h : read t = some p) :
    p.2.length < t.length := by
  unfold read at h
  obtain ⟨⟨key, afterKey⟩, hkey, h⟩ := Option.bind_eq_some_iff.1 h
  obtain ⟨⟨width, afterWidth⟩, hwidth, h⟩ := Option.bind_eq_some_iff.1 h
  obtain ⟨⟨precision, afterPrecision⟩, hprecision, h⟩ := Option.bind_eq_some_iff.1 h
  dsimp only at hwidth hprecision h
  split at h
  · simp at h
  · next letter rest hsize =>
    obtain rfl := Option.some.inj h
    have h1 := length_readKey? hkey
    have h2 := length_readExtent hwidth
    have h3 := length_readPrecision hprecision
    have h4 := length_skipSize afterPrecision
    have h5 := (List.dropWhile_sublist isFlag (l := afterKey)).length_le
    rw [hsize] at h4
    simp only [List.length_cons] at h1 h2 h3 h4 ⊢
    omega

end Directive

/-- The numbers of one filled directive: its width, its side and its precision. -/
structure Field where
  directive : Directive
  leftAligned : Bool
  width : Nat
  precision : Option Nat

namespace Field

/-- Whether the directive has a flag. -/
def has (f : Field) (flag : CodePoint) : Bool := f.directive.flags.contains flag

/-- Pads a text to the width. -/
def pad (f : Field) (t : Text) : Text :=
  if f.leftAligned then Text.padRight f.width ' ' t else Text.padLeft f.width ' ' t

/-- A number with its sign and the mark of its base, padded to the width. -/
def number (f : Field) (negative : Bool) (base digits : Text) : Text :=
  let sign : Text :=
    if negative then "-" else if f.has '+' then "+" else if f.has ' ' then " " else []
  let front := sign ++ base
  if f.has '0' && !f.leftAligned then
    front ++ Text.padLeft (f.width - front.length) '0' digits
  else f.pad (front ++ digits)

/-- An integer in a base, with at least as many digits as the precision says. -/
def integer (f : Field) (base : Nat) (mark : Text) (n : Int) : Text :=
  f.number (n < 0) (if f.has '#' then mark else [])
    (Text.padLeft (f.precision.getD 1) '0' (Text.inBase base n.natAbs))

/-- A floating-point number in one of the three forms, with six digits if there is no
precision. -/
def real (f : Field) (form : Bool → Nat → Nat → Nat → Text) : Binary64 → Text
  | .finite negative mantissa exponent =>
    let (num, den) := Binary64.ratio mantissa exponent
    f.number negative [] (form (f.has '#') (f.precision.getD 6) num den)
  | .infinite negative => f.number negative [] "inf"
  | .nan => f.number false [] "nan"

/-- A text cut to the precision. -/
def cut (f : Field) (t : Text) : Text :=
  match f.precision with
  | some places => f.pad (t.take places)
  | none => f.pad t

/-- A text in which only ASCII characters stand as they are. -/
def ascii (t : Text) : Text :=
  t.flatMap fun c =>
    if c.toNat < 0x80 then [c]
    else if c.toNat < 0x100 then .char '\\' :: .char 'x' :: Text.ofHex 2 c.toNat
    else if c.toNat < 0x10000 then .char '\\' :: .char 'u' :: Text.ofHex 4 c.toNat
    else .char '\\' :: .char 'U' :: Text.ofHex 8 c.toNat

/-- The integer that a value is. -/
def whole? : Value → Option Int
  | .int n => some n
  | .bool b => some (if b then 1 else 0)
  | _ => none

/-- The integer that a value is once its fraction is dropped. -/
def truncated? : Value → Option Int
  | .float (.finite negative mantissa exponent) =>
    let (num, den) := Binary64.ratio mantissa exponent
    some (if negative then -((num / den : Nat) : Int) else (num / den : Nat))
  | v => whole? v

/-- The floating-point number that a value is; an integer beyond the range is none. -/
def real? : Value → Option Binary64
  | .float x => some x
  | v => (whole? v).bind fun n =>
    match Binary64.ofInt n with
    | .infinite _ => none
    | x => some x

/-- The character that a value is or numbers. -/
def character? : Value → Option CodePoint
  | .text [c] => some c
  | v => (whole? v).bind fun n =>
    if 0 ≤ n ∧ n < 0x110000 then some (.ofNat n.toNat) else none

/-- Shows a value. -/
def fill (f : Field) (v : Value) : Option Text :=
  match f.directive.letter with
  | .char 's' => some (f.cut v.shown)
  | .char 'r' => some (f.cut v.shownInside)
  | .char 'a' => some (f.cut (ascii v.shownInside))
  | .char 'c' => (character? v).map fun c => f.pad [c]
  | .char 'd' | .char 'i' | .char 'u' => (truncated? v).map (f.integer 10 [])
  | .char 'o' => (whole? v).map (f.integer 8 "0o")
  | .char 'x' => (whole? v).map (f.integer 16 "0x")
  | .char 'X' => (whole? v).map fun n => (f.integer 16 "0x" n).map CodePoint.toUpper
  | .char 'f' => (real? v).map (f.real Binary64.fixed)
  | .char 'F' => (real? v).map fun x => (f.real Binary64.fixed x).map CodePoint.toUpper
  | .char 'e' => (real? v).map (f.real Binary64.scientific)
  | .char 'E' => (real? v).map fun x => (f.real Binary64.scientific x).map CodePoint.toUpper
  | .char 'g' => (real? v).map (f.real Binary64.general)
  | .char 'G' => (real? v).map fun x => (f.real Binary64.general x).map CodePoint.toUpper
  | _ => none

end Field

namespace Directive

/-- The number of a width or a precision, and the values after it. -/
def extent (values : List Value) : Extent → Option (Int × List Value)
  | .given n => some (n, values)
  | .fromValue =>
    match values with
    | [] => none
    | value :: values =>
      (Field.whole? value).bind fun n =>
        if n.natAbs ≤ largestExtent then some (n, values) else none

/-- Takes the values that the directive needs from the front and shows the last of them. A
negative width stands for the left side, a negative precision for zero. -/
def fill (d : Directive) (values : List Value) : Option (Text × List Value) := do
  let (width, values) ← extent values d.width
  let (precision, values) ← match d.precision with
    | none => pure (none, values)
    | some e => (extent values e).map fun (n, values) => (some n.toNat, values)
  match values with
  | [] => none
  | value :: values =>
    let field : Field := {
      directive := d
      leftAligned := d.flags.contains '-' || width < 0
      width := width.natAbs
      precision }
    (field.fill value).map (·, values)

end Directive
end Remapping
